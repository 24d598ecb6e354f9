import NexusMainframe.Modules.ModuleManager

/-!
# Module objects

A `Module` owns the instance that its library made and the handle of the library, which its
callback frees. `loaded_` is a vector of them: it moves them when it grows, and assigns each
behind an erased one to the one in front of it.

The handles are numbered as they are obtained. The history tells what happens to them, and for
each event which modules are in `loaded_`. What the libraries do, whether the calls of a module
throw, and when the vector is reallocated, comes with the calls of the manager.
-/

namespace NexusMainframe

/-- What happens to a handle, or to the instance made by its library. -/
inductive HandleEvent where
  | opened (n : Nat)
  | created (n : Nat)
  | destroyed (n : Nat)
  | freed (n : Nat)
deriving DecidableEq

/-- A `Module` as an object: the handle whose instance it has, and the one that it frees. -/
structure ModuleObject (φ : Type) extends Module φ where
  instance_ : Option Nat
  handleFree : Option Nat
deriving DecidableEq

/-- An event, with the modules that are in `loaded_` then. -/
structure Moment (φ : Type) where
  event : HandleEvent
  loaded : List (ModuleObject φ)

variable {φ : Type}

namespace ModuleObject

/-- What is left of a module that has been moved from. -/
def moved (m : ModuleObject φ) : ModuleObject φ :=
  { m with name := [], path := [], instance_ := none, handleFree := none }

/-- The destructor, and what an assignment does before it takes the members: `place` tells
what is in `loaded_` while the module is given. -/
def release (place : ModuleObject φ → List (ModuleObject φ)) (m : ModuleObject φ) :
    List (Moment φ) :=
  (m.instance_.toList.map fun n => ⟨.destroyed n, place m⟩)
    ++ (m.handleFree.toList.map fun n => ⟨.freed n, place { m with instance_ := none }⟩)

/-- Erasing the module behind some others: each behind it is assigned to the one in front of
it, and the last is destroyed, which is not in the vector any more. -/
def erase (front : List (ModuleObject φ)) (m : ModuleObject φ) :
    List (ModuleObject φ) → List (Moment φ) × List (ModuleObject φ)
  | [] => (m.release fun _ => front, front)
  | m' :: ms =>
      let (moments, loaded) := erase (front ++ [m']) m'.moved ms
      ((m.release fun m => front ++ m :: m' :: ms) ++ moments, loaded)

/-- The modules behind some others are moved to new memory, and what is left is destroyed. -/
def relocate (front : List (ModuleObject φ)) :
    List (ModuleObject φ) → List (Moment φ) × List (ModuleObject φ)
  | [] => ([], [])
  | m :: ms =>
      let (moments, loaded) := relocate (front ++ [m.moved]) ms
      ((m.moved.release fun m => front ++ m :: ms) ++ moments, m :: loaded)

/-- `push_back` of a module, which leaves it moved from. -/
def pushBack (reallocates : Bool) (loaded : List (ModuleObject φ)) (m : ModuleObject φ) :
    List (Moment φ) × List (ModuleObject φ) × ModuleObject φ :=
  if reallocates then
    let (moments, loaded) := relocate [] loaded
    (moments, loaded ++ [m], m.moved)
  else ([], loaded ++ [m], m.moved)

/-- The destructor of the vector. -/
def destroyAll : List (ModuleObject φ) → List (Moment φ)
  | [] => []
  | m :: ms => (m.release fun m => m :: ms) ++ destroyAll ms

end ModuleObject

/-- What `createModule` of a library does: it is not there, returns nothing, throws, or makes
an instance, whose `getName` returns a name or throws. -/
inductive Creation where
  | missing
  | null
  | threw
  | made (getName : Option Bytes)
deriving DecidableEq

/-- How `ModuleLoader::load` ends. -/
inductive LoadResult (φ : Type) where
  | nullopt
  | threw
  | loaded (m : ModuleObject φ)

/-- `ModuleLoader::load`, when the next handle has the number `n` and `loadLibrary` finds a
file or not. -/
def ModuleLoader.load (n : Nat) (name : Bytes) :
    Option (φ × Creation) → List HandleEvent × LoadResult φ
  | none => ([], .nullopt)
  | some (_, .missing) => ([.opened n, .freed n], .nullopt)
  | some (_, .null) => ([.opened n, .freed n], .nullopt)
  -- nothing owns the handle yet
  | some (_, .threw) => ([.opened n], .threw)
  | some (_, .made none) => ([.opened n, .created n, .destroyed n], .threw)
  | some (file, .made (some reported)) =>
      ([.opened n, .created n], .loaded ⟨⟨reported, name, file⟩, some n, some n⟩)

/-- The modules of a `ModuleManager`, with the number of handles obtained and their history. -/
structure ModuleObjects (φ : Type) where
  loaded : List (ModuleObject φ)
  opened : Nat
  history : List (Moment φ)
  alive : Bool

namespace ModuleObjects

open ModuleManager (Outcome)

/-- A manager without modules. -/
def init : ModuleObjects φ where
  loaded := []
  opened := 0
  history := []
  alive := true

/-- The modules, without the objects. -/
def modules (s : ModuleObjects φ) : List (Module φ) :=
  s.loaded.map ModuleObject.toModule

/-- The state after a call of the loader, where nothing is done to `loaded_`. -/
def loading (s : ModuleObjects φ) (library : Option (φ × Creation)) (events : List HandleEvent) :
    ModuleObjects φ :=
  { s with
    opened := s.opened + library.toList.length
    history := s.history ++ events.map fun e => ⟨e, s.loaded⟩ }

/-- `load`, and a turn of the loops of `loadFromState` and `loadFromDirectory`. The call throws
when `initialize`, a receiver of the event, the store or the vector does, and the module
is destroyed then. -/
def load (s : ModuleObjects φ) (name : Bytes) (library : Option (φ × Creation))
    (throws reallocates : Bool) : ModuleObjects φ × Outcome :=
  if ModuleManager.isLoaded s.modules name then (s, .returned false)
  else
    let (events, result) := ModuleLoader.load s.opened name library
    let s := s.loading library events
    match result with
    | .nullopt => (s, .returned false)
    | .threw => (s, .threw)
    | .loaded m =>
        if throws then
          ({ s with history := s.history ++ m.release fun _ => s.loaded }, .threw)
        else
          let (moments, loaded, rest) := ModuleObject.pushBack reallocates s.loaded m
          ({ s with
              loaded := loaded
              history := s.history ++ moments ++ rest.release fun _ => loaded },
            .returned true)

/-- `unload`, which throws before it erases the module when a receiver of the event or
`shutdown` does. -/
def unload (s : ModuleObjects φ) (name : Bytes) (throws : Bool) : ModuleObjects φ × Outcome :=
  match s.loaded.dropWhile fun m => m.name ≠ name with
  | [] => (s, .returned false)
  | m :: ms =>
      if throws then (s, .threw)
      else
        let (moments, loaded) := m.erase (s.loaded.takeWhile fun m => m.name ≠ name) ms
        ({ s with loaded := loaded, history := s.history ++ moments }, .returned true)

/-- The destructor of the manager. -/
def destroy (s : ModuleObjects φ) : ModuleObjects φ :=
  { s with
    loaded := []
    history := s.history ++ ModuleObject.destroyAll s.loaded
    alive := false }

/-- A call of the manager, with what the library makes of it, and its destructor. -/
inductive Act (φ : Type) where
  | load (name : Bytes) (library : Option (φ × Creation)) (throws reallocates : Bool)
  | unload (name : Bytes) (throws : Bool)
  | destroy
deriving DecidableEq

/-- A call of a manager that has not been destroyed. -/
def step (s : ModuleObjects φ) (a : Act φ) : Option (ModuleObjects φ) :=
  if s.alive then
    match a with
    | .load name library throws reallocates => some (s.load name library throws reallocates).1
    | .unload name throws => some (s.unload name throws).1
    | .destroy => some s.destroy
  else none

/-- Neither `createModule` nor `getName` throws, when the library is loaded. -/
def Returns (s : ModuleObjects φ) : Act φ → Prop
  | .load name (some (_, creation)) _ _ =>
      ModuleManager.isLoaded s.modules name = true
        ∨ creation ≠ .threw ∧ creation ≠ .made none
  | _ => True

instance decidableReturns (s : ModuleObjects φ) : ∀ a, Decidable (Returns s a)
  | .load _ none _ _ => isTrue trivial
  | .load _ (some _) _ _ => inferInstanceAs (Decidable (_ ∨ _ ∧ _))
  | .unload _ _ => isTrue trivial
  | .destroy => isTrue trivial

end ModuleObjects

/-! ### Moving modules -/

namespace ModuleObject

/-- A module that has been moved from releases nothing. -/
@[simp]
theorem release_moved
    (place : ModuleObject φ → List (ModuleObject φ)) (m : ModuleObject φ) :
  m.moved.release place = []
  := rfl

/-- The chain of assignments behind an erased module does nothing but move. -/
theorem erase_moved (front : List (ModuleObject φ)) (m : ModuleObject φ)
    (ms : List (ModuleObject φ)) :
  m.moved.erase front ms = ([], front ++ ms)
  := by
  induction ms generalizing front m with
  | nil => simp [erase]
  | cons m' ms ih => simp [erase, ih]

/-- What is in `loaded_` while a module is erased. -/
def erasing (front : List (ModuleObject φ)) :
    List (ModuleObject φ) → ModuleObject φ → List (ModuleObject φ)
  | [], _ => front
  | m' :: ms, m => front ++ m :: m' :: ms

theorem erasing_subset (front ms : List (ModuleObject φ)) (m : ModuleObject φ) :
  erasing front ms m ⊆ front ++ m :: ms
  := by
  cases ms with
  | nil => apply List.subset_append_left
  | cons m' ms => apply List.Subset.refl

/-- Erasing a module releases it, and nothing else. -/
theorem erase_eq
    (front : List (ModuleObject φ)) (m : ModuleObject φ) (ms : List (ModuleObject φ)) :
  m.erase front ms = (m.release (erasing front ms), front ++ ms)
  := by
  cases ms with
  | nil =>
      rw [erase, List.append_nil]
      rfl
  | cons m' ms =>
      have hfront : front ++ [m'] ++ ms = front ++ m' :: ms := by simp
      rw [erase, erase_moved, hfront]
      dsimp only
      rw [List.append_nil]
      rfl

/-- A reallocation releases nothing. -/
theorem relocate_eq (front loaded : List (ModuleObject φ)) :
  relocate front loaded = ([], loaded)
  := by
  induction loaded generalizing front with
  | nil => rfl
  | cons m ms ih => simp [relocate, ih]

theorem pushBack_eq
    (reallocates : Bool) (loaded : List (ModuleObject φ)) (m : ModuleObject φ) :
  pushBack reallocates loaded m = ([], loaded ++ [m], m.moved)
  := by
  unfold pushBack
  split
  next => rw [relocate_eq]
  next => rfl

end ModuleObject

namespace ModuleObjects

theorem alive_load
    (s : ModuleObjects φ) (name : Bytes) (library : Option (φ × Creation))
    (throws reallocates : Bool) :
  (s.load name library throws reallocates).1.alive = s.alive
  := by
  unfold load
  split
  next => rfl
  next =>
    dsimp only
    split
    next => rfl
    next => rfl
    next => split <;> rfl

theorem alive_unload (s : ModuleObjects φ) (name : Bytes) (throws : Bool) :
  (s.unload name throws).1.alive = s.alive
  := by
  unfold unload
  split
  next => rfl
  next => split <;> rfl

/-! ### The manager without the objects -/

theorem eraseP_eq_takeWhile_append {α : Type} (p : α → Bool) (xs : List α) :
  xs.eraseP p = xs.takeWhile (fun x => !p x) ++ (xs.dropWhile fun x => !p x).tail
  := by
  induction xs with
  | nil => rfl
  | cons x xs ih => cases hx : p x <;> simp [hx, ih]

/-- What the call of `createModule` does in the libraries that modules can be made from. -/
def creation (libs : Libraries φ) (name : Bytes) : Option (φ × Creation) :=
  (libs.locate name).map fun file => (file, .made (some (libs.reports file)))

theorem returns_creation (libs : Libraries φ) (s : ModuleObjects φ) (name : Bytes) :
  Returns s (.load name (creation libs name) false false)
  := by
  unfold creation
  cases libs.locate name with
  | none => trivial
  | some file =>
      right
      constructor <;> simp

/-- A module is added as in a turn of the loop of `loadFromState`, unless the call throws. -/
theorem modules_load
    (libs : Libraries φ) (s : ModuleObjects φ) (name : Bytes) (throws reallocates : Bool) :
  (s.load name (creation libs name) throws reallocates).1.modules
    = if throws then s.modules else ModuleManager.restore libs s.modules name
  := by
  unfold load ModuleManager.restore Libraries.load creation
  split
  next => rw [ite_self]
  next =>
    cases libs.locate name with
    | none => simp [ModuleLoader.load, loading, modules]
    | some file =>
        dsimp only [Option.map_some, ModuleLoader.load]
        cases throws with
        | false => simp [ModuleObject.pushBack_eq, loading, modules]
        | true => rfl

/-- The first module of the name is erased. -/
theorem modules_unload (s : ModuleObjects φ) (name : Bytes) :
  (s.unload name false).1.modules = s.modules.eraseP fun m => m.name = name
  := by
  have hnot : ∀ m : ModuleObject φ, decide (m.name ≠ name) = !decide (m.name = name) :=
    fun _ => decide_not
  have herase : s.modules.eraseP (fun m => m.name = name)
      = (s.loaded.eraseP fun m => m.name = name).map ModuleObject.toModule := List.eraseP_map
  rw [herase, eraseP_eq_takeWhile_append]
  unfold unload
  simp only [hnot]
  split
  next hdrop =>
    have htake : s.loaded.takeWhile (fun m => !decide (m.name = name))
        ++ s.loaded.dropWhile (fun m => !decide (m.name = name)) = s.loaded :=
      List.takeWhile_append_dropWhile
    rw [hdrop] at htake
    rw [hdrop, List.tail_nil, htake]
    rfl
  next m ms hdrop =>
    rw [hdrop, if_neg Bool.false_ne_true, ModuleObject.erase_eq, List.tail_cons]
    rfl

theorem loaded_unload (dump : Json → Option Bytes) (m : ModuleManager φ) (name : Bytes) :
  (m.unload dump name).1.loaded = m.loaded.eraseP fun m => m.name = name
  := by
  unfold ModuleManager.unload
  split
  next =>
    dsimp only
    split <;> rfl
  next hnot =>
    rw [Bool.not_eq_true, ModuleManager.isLoaded_eq_false_iff] at hnot
    rw [List.eraseP_of_forall_not]
    intro m' hm'
    simpa using hnot m' hm'

theorem run_loads
    (libs : Libraries φ) {s : ModuleObjects φ} (halive : s.alive = true) (names : List Bytes) :
  ∃ acts t, Lts.run step s acts = some t ∧ Lts.Guarded step Returns s acts ∧ t.alive = true
    ∧ t.modules = names.foldl (ModuleManager.restore libs) s.modules
  := by
  induction names generalizing s with
  | nil => exact ⟨[], s, rfl, trivial, halive, rfl⟩
  | cons name names ih =>
      have hload := modules_load libs s name false false
      have halive' := (alive_load s name (creation libs name) false false).trans halive
      obtain ⟨acts, t, hrun, hreturns, ht, hmodules⟩ := ih halive'
      have hstep : step s (.load name (creation libs name) false false)
          = some (s.load name (creation libs name) false false).1 := if_pos halive
      use .load name (creation libs name) false false :: acts, t
      refine ⟨?_, ⟨returns_creation libs s name, ?_⟩, ht, ?_⟩
      · rw [Lts.run, hstep]
        exact hrun
      · rintro u hu
        obtain rfl := Option.some.inj (hstep.symm.trans hu)
        exact hreturns
      · rw [hmodules, hload]
        rfl

/-- Every step of a manager is made by calls with the objects, in which no library throws. -/
theorem exists_run_of_step
    {libs : Libraries φ} {dump : Json → Option Bytes} {m u : ModuleManager φ}
    {a : ModuleManager.Act} (hstep : ModuleManager.step libs dump m a = some u)
    {s : ModuleObjects φ} (halive : s.alive = true) (hmodules : s.modules = m.loaded) :
  ∃ acts t, Lts.run step s acts = some t ∧ Lts.Guarded step Returns s acts ∧ t.alive = true
    ∧ t.modules = u.loaded
  := by
  cases a with
  | load name =>
      cases hstep
      rcases ModuleManager.loaded_load libs dump m name with hsame | hrestore
      · use [], s, rfl, trivial, halive
        rw [hmodules, hsame]
      · rw [hrestore, ← hmodules]
        apply run_loads libs halive [name]
  | unload name =>
      cases hstep
      use [.unload name false], (s.unload name false).1
      refine ⟨?_, ⟨trivial, fun _ _ => trivial⟩, (alive_unload s name false).trans halive, ?_⟩
      · rw [Lts.run, step, if_pos halive]
        rfl
      · rw [modules_unload, hmodules, loaded_unload]
  | loadFromState =>
      cases hstep
      have hloaded : (m.loadFromState libs).loaded
          = m.names.foldl (ModuleManager.restore libs) s.modules := by
        rw [hmodules]
        rfl
      rw [hloaded]
      apply run_loads libs halive m.names
  | loadFromDirectory stems =>
      cases hstep
      rw [ModuleManager.loaded_loadFromDirectory, ← hmodules]
      apply run_loads libs halive stems

/-- Every run of a manager is made by calls with the objects, in which no library throws. -/
theorem exists_run_of_run
    {libs : Libraries φ} {dump : Json → Option Bytes} {m u : ModuleManager φ}
    {acts : List ModuleManager.Act} (hrun : Lts.run (ModuleManager.step libs dump) m acts = some u)
    {s : ModuleObjects φ} (halive : s.alive = true) (hmodules : s.modules = m.loaded) :
  ∃ acts t, Lts.run step s acts = some t ∧ Lts.Guarded step Returns s acts ∧ t.alive = true
    ∧ t.modules = u.loaded
  := by
  induction acts generalizing m s with
  | nil =>
      cases hrun
      exact ⟨[], s, rfl, trivial, halive, hmodules⟩
  | cons a acts ih =>
      obtain ⟨v, hstep, hrun⟩ := Option.bind_eq_some_iff.mp hrun
      obtain ⟨acts₁, t₁, hrun₁, hreturns₁, ht₁, hmodules₁⟩ :=
        exists_run_of_step hstep halive hmodules
      obtain ⟨acts₂, t₂, hrun₂, hreturns₂, ht₂, hmodules₂⟩ := ih hrun ht₁ hmodules₁
      use acts₁ ++ acts₂, t₂
      refine ⟨?_, ?_, ht₂, hmodules₂⟩
      · rw [Lts.run_append, hrun₁]
        exact hrun₂
      · rw [Lts.guarded_append]
        use hreturns₁
        rintro t ht
        obtain rfl := Option.some.inj (hrun₁.symm.trans ht)
        exact hreturns₂

end ModuleObjects

end NexusMainframe
