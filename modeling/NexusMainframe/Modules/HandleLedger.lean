import NexusMainframe.Lib.Ownership
import NexusMainframe.Modules.ModuleObjects

/-!
# The handles of the libraries

A history of events is safe when each handle is freed after its instance has been destroyed, and
while no module in `loaded_` has that instance, and when no library is run that has been
freed. `Moment.Ledger` is what holds of a history with the handles that are held and the
instances that live; its rules say how they change with each event, and with the modules that
the vector releases.
-/

namespace NexusMainframe

open Ownership

variable {φ : Type}

/-! ### Histories -/

namespace HandleEvent

/-- What an event does with the handle: the code of the library runs when its instance is
created and destroyed. -/
def toUse : HandleEvent → Use Nat
  | .opened n => .acquired n
  | .created n => .used n
  | .destroyed n => .used n
  | .freed n => .released n

end HandleEvent

namespace Moment

/-- The events of a history. -/
def events (history : List (Moment φ)) : List HandleEvent :=
  history.map Moment.event

/-- What was done with the handles. -/
def uses (history : List (Moment φ)) : List (Use Nat) :=
  (events history).map HandleEvent.toUse

theorem events_concat (history : List (Moment φ)) (mo : Moment φ) :
  events (history ++ [mo]) = events history ++ [mo.event]
  := by
  simp [events]

theorem uses_concat (history : List (Moment φ)) (mo : Moment φ) :
  uses (history ++ [mo]) = uses history ++ [mo.event.toUse]
  := by
  simp [uses, events]

variable {history : List (Moment φ)} {n : Nat}

theorem acquired_mem_uses :
  .acquired n ∈ uses history ↔ .opened n ∈ events history
  := by
  rw [uses, List.mem_map]
  constructor
  · rintro ⟨e, he, heq⟩
    cases e <;> cases heq
    exact he
  · intro h
    exact ⟨_, h, rfl⟩

theorem released_mem_uses :
  .released n ∈ uses history ↔ .freed n ∈ events history
  := by
  rw [uses, List.mem_map]
  constructor
  · rintro ⟨e, he, heq⟩
    cases e <;> cases heq
    exact he
  · intro h
    exact ⟨_, h, rfl⟩

theorem count_released :
  (uses history).count (.released n) = (events history).count (.freed n)
  := by
  unfold uses
  induction events history with
  | nil => rfl
  | cons e es ih => cases e <;> simp [HandleEvent.toUse, List.count_cons, ih]

/-- An event as it should be, after some others. A handle is freed after it has been obtained
and after its instance has been destroyed, and no module that is still in `loaded_` with an
instance has that handle. No library that has been freed is run, and no module in `loaded_`
has a handle that has been freed. -/
structure Fine (pre : List (Moment φ)) (mo : Moment φ) : Prop where
  opened : ∀ n, mo.event = .freed n → .opened n ∈ events pre
  destroyed : ∀ n, mo.event = .freed n → .created n ∈ events pre → .destroyed n ∈ events pre
  notLoaded : ∀ n, mo.event = .freed n → ∀ m ∈ mo.loaded, m.instance_ ≠ some n
  mapped : ∀ n, mo.event = .created n ∨ mo.event = .destroyed n → .freed n ∉ events pre
  backed : ∀ m ∈ mo.loaded, ∀ n, m.handleFree = some n → .freed n ∉ events pre

/-- A history of events as they should be. -/
def Safe (history : List (Moment φ)) : Prop :=
  ∀ pre mo post, history = pre ++ mo :: post → Fine pre mo

theorem Safe.concat
    (h : Safe history) {mo : Moment φ} (hmo : Fine history mo) :
  Safe (history ++ [mo])
  := by
  intro pre mo' post heq
  rcases Lts.concat_eq_append_cons.mp heq with ⟨-, rfl, rfl⟩ | ⟨post', -, heq⟩
  · exact hmo
  · exact h pre mo' post' heq

/-- The modules in a list have just these handles and instances. -/
def Backed (loaded : List (ModuleObject φ)) (Held Live : Nat → Prop) : Prop :=
  ∀ m ∈ loaded, ∀ n, (m.handleFree = some n → Held n) ∧ (m.instance_ = some n → Live n)

theorem Backed.subset
    {loaded loaded' : List (ModuleObject φ)} {Held Live : Nat → Prop}
    (h : Backed loaded Held Live) (hsubset : loaded' ⊆ loaded) :
  Backed loaded' Held Live
  := fun m hm => h m (hsubset hm)

theorem Backed.insert
    {front ms : List (ModuleObject φ)} {m : ModuleObject φ} {Held Live : Nat → Prop}
    (h : Backed (front ++ ms) Held Live) (hm : Backed [m] Held Live) :
  Backed (front ++ m :: ms) Held Live
  := by
  intro m' hm'
  rw [List.mem_append, List.mem_cons] at hm'
  rcases hm' with hm' | rfl | hm'
  · apply h m' (List.mem_append_left _ hm')
  · apply hm m' (List.mem_singleton_self m')
  · apply h m' (List.mem_append_right _ hm')

/-- What holds of a history, with the handles that are held and the instances that live. -/
structure Ledger (Held Live : Nat → Prop) (opened : Nat) (history : List (Moment φ)) : Prop where
  accounted : Accounted Held (uses history)
  opened_iff : ∀ n, .opened n ∈ events history ↔ n < opened
  held : ∀ n, Live n → Held n
  live : ∀ n, .created n ∈ events history → Live n ∨ .destroyed n ∈ events history
  safe : Safe history

namespace Ledger

variable {Held Live : Nat → Prop} {opened : Nat} {loaded : List (ModuleObject φ)}

theorem congr
    (h : Ledger Held Live opened history) {Held' Live' : Nat → Prop}
    (hheld : ∀ n, Held' n ↔ Held n) (hlive : ∀ n, Live' n ↔ Live n) :
  Ledger Held' Live' opened history
  := by
  obtain rfl : Held' = Held := funext fun n => propext (hheld n)
  obtain rfl : Live' = Live := funext fun n => propext (hlive n)
  exact h

theorem not_freed
    (h : Ledger Held Live opened history) (hn : Held n) :
  .freed n ∉ events history
  := by
  rw [← released_mem_uses]
  apply h.accounted.not_released hn

theorem lt_of_held
    (h : Ledger Held Live opened history) (hn : Held n) :
  n < opened
  := by
  rw [← h.opened_iff, ← acquired_mem_uses]
  apply h.accounted.owned n hn

/-- No module in a list that is backed has a handle that has been freed. -/
theorem not_freed_of_backed
    (h : Ledger Held Live opened history) (hbacked : Backed loaded Held Live) :
  ∀ m ∈ loaded, ∀ n, m.handleFree = some n → .freed n ∉ events history
  := by
  intro m hm n hn
  apply h.not_freed ((hbacked m hm n).1 hn)

/-- A library that is held is run, to create an instance or to destroy one. -/
theorem safe_of_held
    (h : Ledger Held Live opened history) (hn : Held n) (hbacked : Backed loaded Held Live)
    {e : HandleEvent} (he : e = .created n ∨ e = .destroyed n) :
  Safe (history ++ [⟨e, loaded⟩])
  := by
  apply h.safe.concat
  rcases he with rfl | rfl
  all_goals
    constructor
    · rintro n' ⟨⟩
    · rintro n' ⟨⟩
    · rintro n' ⟨⟩
    · rintro n' (heq | heq) <;> cases heq
      apply h.not_freed hn
    · apply h.not_freed_of_backed hbacked

/-- A library is opened. -/
theorem open'
    (h : Ledger Held Live opened history) (hbacked : Backed loaded Held Live) :
  Ledger (fun n => Held n ∨ n = opened) Live (opened + 1)
    (history ++ [⟨.opened opened, loaded⟩])
  where
  accounted := by
    rw [uses_concat]
    apply h.accounted.acquire
    rw [acquired_mem_uses, h.opened_iff]
    apply lt_irrefl
  opened_iff n := by
    rw [events_concat, List.mem_append, h.opened_iff, List.mem_singleton,
      HandleEvent.opened.injEq]
    omega
  held n hn := .inl (h.held n hn)
  live n hn := by
    rw [events_concat] at hn ⊢
    simpa using h.live n (by simpa using hn)
  safe := by
    apply h.safe.concat
    constructor
    · rintro n ⟨⟩
    · rintro n ⟨⟩
    · rintro n ⟨⟩
    · rintro n (hn | hn) <;> cases hn
    · apply h.not_freed_of_backed hbacked

/-- An instance is created. -/
theorem create
    (h : Ledger Held Live opened history) (hn : Held n) (hbacked : Backed loaded Held Live) :
  Ledger Held (fun n' => Live n' ∨ n' = n) opened (history ++ [⟨.created n, loaded⟩])
  where
  accounted := by
    rw [uses_concat]
    apply h.accounted.use hn
  opened_iff n' := by
    rw [events_concat, ← h.opened_iff]
    simp
  held n' := by
    rintro (hn' | rfl)
    · apply h.held n' hn'
    · exact hn
  live n' hn' := by
    rw [events_concat] at hn' ⊢
    simp only [List.mem_append, List.mem_singleton, HandleEvent.created.injEq,
      reduceCtorEq, or_false] at hn' ⊢
    rcases hn' with hn' | rfl
    · rcases h.live n' hn' with hlive | hdestroyed
      · exact .inl (.inl hlive)
      · exact .inr hdestroyed
    · exact .inl (.inr rfl)
  safe := h.safe_of_held hn hbacked (Or.inl rfl)

/-- An instance is destroyed. -/
theorem destroy
    (h : Ledger Held Live opened history) (hn : Live n) (hbacked : Backed loaded Held Live) :
  Ledger Held (fun n' => Live n' ∧ n' ≠ n) opened (history ++ [⟨.destroyed n, loaded⟩])
  where
  accounted := by
    rw [uses_concat]
    apply h.accounted.use (h.held n hn)
  opened_iff n' := by
    rw [events_concat, ← h.opened_iff]
    simp
  held n' hn' := h.held n' hn'.1
  live n' hn' := by
    rw [events_concat] at hn' ⊢
    simp only [List.mem_append, List.mem_singleton, HandleEvent.destroyed.injEq,
      reduceCtorEq, or_false] at hn' ⊢
    have hlive := h.live n' hn'
    tauto
  safe := h.safe_of_held (h.held n hn) hbacked (Or.inr rfl)

/-- A handle without an instance is freed. -/
theorem free
    (h : Ledger Held Live opened history) (hn : Held n) (hdead : ¬ Live n)
    (hbacked : Backed loaded Held Live) :
  Ledger (fun n' => Held n' ∧ n' ≠ n) Live opened (history ++ [⟨.freed n, loaded⟩])
  where
  accounted := by
    rw [uses_concat]
    apply h.accounted.release hn
  opened_iff n' := by
    rw [events_concat, ← h.opened_iff]
    simp
  held n' hn' := by
    use h.held n' hn'
    rintro rfl
    exact hdead hn'
  live n' hn' := by
    rw [events_concat] at hn' ⊢
    simpa using h.live n' (by simpa using hn')
  safe := by
    apply h.safe.concat
    constructor
    · rintro n' heq
      cases heq
      rw [h.opened_iff]
      apply h.lt_of_held hn
    · rintro n' heq hcreated
      cases heq
      apply (h.live n hcreated).resolve_left hdead
    · rintro n' heq m hm hinstance
      cases heq
      apply hdead ((hbacked m hm n).2 hinstance)
    · rintro n' (heq | heq) <;> cases heq
    · apply h.not_freed_of_backed hbacked

/-- A module that owns a handle and its instance is released. -/
theorem release
    (h : Ledger Held Live opened history) (place : ModuleObject φ → List (ModuleObject φ))
    {m : ModuleObject φ} (hinstance : m.instance_ = some n) (hhandle : m.handleFree = some n)
    (hn : Live n) (hbefore : Backed (place m) Held Live)
    (hafter : Backed (place { m with instance_ := none }) Held fun n' => Live n' ∧ n' ≠ n) :
  Ledger (fun n' => Held n' ∧ n' ≠ n) (fun n' => Live n' ∧ n' ≠ n) opened
    (history ++ m.release place)
  := by
  have hrelease : m.release place
      = [⟨.destroyed n, place m⟩] ++ [⟨.freed n, place { m with instance_ := none }⟩] := by
    rw [ModuleObject.release, hinstance, hhandle]
    rfl
  rw [hrelease, ← List.append_assoc]
  have hdestroyed := h.destroy hn hbefore
  apply hdestroyed.free (h.held n hn) _ hafter
  rintro ⟨-, hne⟩
  exact hne rfl

end Ledger

end Moment

/-! ### Modules in the vector -/

namespace ModuleObject

/-- A module with a handle and the instance of its library. -/
def Owner (m : ModuleObject φ) : Prop :=
  ∃ n, m.instance_ = some n ∧ m.handleFree = some n

/-- The handles of some modules. -/
def handles (loaded : List (ModuleObject φ)) : List Nat :=
  loaded.filterMap ModuleObject.handleFree

variable {loaded : List (ModuleObject φ)}

theorem mem_handles {m : ModuleObject φ} {n : Nat} (hm : m ∈ loaded)
    (hn : m.handleFree = some n) :
  n ∈ handles loaded
  := List.mem_filterMap.mpr ⟨m, hm, hn⟩

theorem handles_append (front back : List (ModuleObject φ)) :
  handles (front ++ back) = handles front ++ handles back
  := List.filterMap_append

theorem handles_cons
    {m : ModuleObject φ} {n : Nat} (hn : m.handleFree = some n) (ms : List (ModuleObject φ)) :
  handles (m :: ms) = n :: handles ms
  := List.filterMap_cons_some hn

theorem mem_handles_insert
    {front ms : List (ModuleObject φ)} {m : ModuleObject φ} {n n' : Nat}
    (hn : m.handleFree = some n) :
  n' ∈ handles (front ++ m :: ms) ↔ n' = n ∨ n' ∈ handles (front ++ ms)
  := by
  rw [handles_append, handles_append, handles_cons hn]
  simp only [List.mem_append, List.mem_cons]
  tauto

/-- The modules of the vector have the handles and instances of the vector. -/
theorem backed_of_owners
    (howners : ∀ m ∈ loaded, m.Owner) {Held Live : Nat → Prop}
    (hheld : ∀ n ∈ handles loaded, Held n) (hlive : ∀ n ∈ handles loaded, Live n) :
  Moment.Backed loaded Held Live
  := by
  intro m hm n
  obtain ⟨n', hinstance, hhandle⟩ := howners m hm
  constructor
  · intro hn
    apply hheld n (mem_handles hm hn)
  · intro hn
    obtain rfl : n' = n := Option.some.inj (hinstance.symm.trans hn)
    apply hlive n' (mem_handles hm hhandle)

end ModuleObject

namespace Moment

open ModuleObject (handles handles_append handles_cons mem_handles_insert backed_of_owners)

variable {leaked : List Nat} {opened : Nat} {history : List (Moment φ)}

/-- A module of the vector is released, where the others are left alone. -/
theorem Ledger.releaseFrom
    (front : List (ModuleObject φ)) {ms : List (ModuleObject φ)} {m : ModuleObject φ}
    (howners : ∀ m' ∈ front ++ m :: ms, m'.Owner)
    (hnodup : (handles (front ++ m :: ms) ++ leaked).Nodup)
    (h : Ledger (· ∈ handles (front ++ m :: ms) ++ leaked) (· ∈ handles (front ++ m :: ms))
      opened history)
    {place : ModuleObject φ → List (ModuleObject φ)}
    (hplace : ∀ m', place m' ⊆ front ++ m' :: ms) :
  Ledger (· ∈ handles (front ++ ms) ++ leaked) (· ∈ handles (front ++ ms)) opened
    (history ++ m.release place)
  := by
  obtain ⟨n, hinstance, hhandle⟩ := howners m (by simp)
  have hothers : ∀ m' ∈ front ++ ms, m'.Owner := by
    intro m' hm'
    apply howners m'
    rcases List.mem_append.mp hm' with hm' | hm' <;> simp [hm']
  have hnew : n ∉ handles (front ++ ms) ++ leaked := by
    rw [handles_append, handles_cons hhandle, List.append_assoc, List.cons_append,
      List.nodup_middle, List.nodup_cons] at hnodup
    simpa [handles_append] using hnodup.1
  have hledger : Ledger (fun n' => n' = n ∨ n' ∈ handles (front ++ ms) ++ leaked)
      (fun n' => n' = n ∨ n' ∈ handles (front ++ ms)) opened history := by
    apply h.congr <;> intro n' <;> simp only [List.mem_append, mem_handles_insert hhandle]
    tauto
  have hbefore : Backed (front ++ m :: ms)
      (fun n' => n' = n ∨ n' ∈ handles (front ++ ms) ++ leaked)
      fun n' => n' = n ∨ n' ∈ handles (front ++ ms) := by
    apply backed_of_owners howners <;> intro n' hn' <;> rw [mem_handles_insert hhandle] at hn'
    · apply hn'.imp_right (List.mem_append_left _)
    · exact hn'
  -- the module itself has no instance any more when its handle is freed
  have hafter : Backed (front ++ { m with instance_ := none } :: ms)
      (fun n' => n' = n ∨ n' ∈ handles (front ++ ms) ++ leaked)
      fun n' => (n' = n ∨ n' ∈ handles (front ++ ms)) ∧ n' ≠ n := by
    apply Backed.insert
    · apply backed_of_owners hothers
      · intro n' hn'
        exact .inr (List.mem_append_left _ hn')
      · intro n' hn'
        use .inr hn'
        rintro rfl
        apply hnew (List.mem_append_left _ hn')
    · intro m' hm' n'
      obtain rfl := List.mem_singleton.mp hm'
      constructor
      · intro hn'
        exact .inl (Option.some.inj (hn'.symm.trans hhandle))
      · rintro ⟨⟩
  have hreleased := hledger.release place hinstance hhandle (.inl rfl)
    (hbefore.subset (hplace _)) (hafter.subset (hplace _))
  have hrest {ns : List Nat} (hns : n ∉ ns) (n' : Nat) :
      n' ∈ ns ↔ (n' = n ∨ n' ∈ ns) ∧ n' ≠ n := by
    grind
  apply hreleased.congr
  · apply hrest hnew
  · apply hrest fun hn => hnew (List.mem_append_left _ hn)

/-- The vector is destroyed. -/
theorem Ledger.destroyAll
    {loaded : List (ModuleObject φ)} (howners : ∀ m ∈ loaded, m.Owner)
    (hnodup : (handles loaded ++ leaked).Nodup)
    (h : Ledger (· ∈ handles loaded ++ leaked) (· ∈ handles loaded) opened history) :
  Ledger (· ∈ leaked) (· ∈ ([] : List Nat)) opened (history ++ ModuleObject.destroyAll loaded)
  := by
  induction loaded generalizing history with
  | nil =>
      rw [ModuleObject.destroyAll, List.append_nil]
      exact h
  | cons m ms ih =>
      rw [ModuleObject.destroyAll, ← List.append_assoc]
      apply ih
      · intro m' hm'
        apply howners m' (List.mem_cons_of_mem m hm')
      · obtain ⟨n, -, hhandle⟩ := howners m List.mem_cons_self
        rw [handles_cons hhandle, List.cons_append] at hnodup
        exact hnodup.of_cons
      · have hms : ∀ m' : ModuleObject φ, m' :: ms ⊆ [] ++ m' :: ms := by simp
        apply h.releaseFrom [] howners hnodup hms

end Moment

end NexusMainframe
