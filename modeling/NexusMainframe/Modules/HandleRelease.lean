import NexusMainframe.Modules.HandleLedger

/-!
# When the handles of the libraries are released

The modules in `loaded_` own the handles of their libraries. A handle is owned, besides, by
nobody when `createModule` or `getName` has thrown: such a handle is never released. Every
other handle is released once, after its instance has been destroyed.
-/

namespace NexusMainframe

open Ownership

variable {φ : Type}

/-! ### Runs of the manager -/

namespace ModuleObjects

open Moment (Ledger)
open ModuleObject (handles handles_append handles_cons backed_of_owners)

/-- What holds between the calls, with the handles that nobody owns. -/
structure Tracked (leaked : List Nat) (s : ModuleObjects φ) : Prop where
  owners : ∀ m ∈ s.loaded, m.Owner
  nodup : (handles s.loaded ++ leaked).Nodup
  ledger : Ledger (· ∈ handles s.loaded ++ leaked) (· ∈ handles s.loaded) s.opened s.history

variable {leaked : List Nat} {s t : ModuleObjects φ}

theorem Tracked.init :
  Tracked [] (init : ModuleObjects φ)
  where
  owners m hm := by cases hm
  nodup := List.nodup_nil
  ledger :=
    { accounted := Accounted.nil fun n hn => by cases hn
      opened_iff := fun n => by simp [Moment.events, ModuleObjects.init]
      held := fun n hn => by cases hn
      live := fun n hn => by cases hn
      safe := fun pre mo post heq => by simp [ModuleObjects.init] at heq }

theorem Tracked.lt_opened (h : Tracked leaked s) {n : Nat} (hn : n ∈ handles s.loaded ++ leaked) :
  n < s.opened
  := h.ledger.lt_of_held hn

theorem Tracked.opened_notMem (h : Tracked leaked s) :
  s.opened ∉ handles s.loaded ++ leaked
  := by
  intro hmem
  apply lt_irrefl _ (h.lt_opened hmem)

theorem Tracked.unload
    (h : Tracked leaked s) (name : Bytes) (throws : Bool) :
  Tracked leaked (s.unload name throws).1
  := by
  unfold ModuleObjects.unload
  split
  next => exact h
  next m ms hdrop =>
    split
    next => exact h
    next =>
      rw [ModuleObject.erase_eq]
      generalize hfront : s.loaded.takeWhile (fun m => m.name ≠ name) = front
      have hloaded : s.loaded = front ++ m :: ms := by
        rw [← hfront, ← hdrop, List.takeWhile_append_dropWhile]
      obtain ⟨howners, hnodup, hledger⟩ := h
      rw [hloaded] at howners hnodup hledger
      constructor
      · intro m' hm'
        apply howners m'
        rcases List.mem_append.mp hm' with hm' | hm' <;> simp [hm']
      · have hsublist : (handles (front ++ ms) ++ leaked).Sublist
            (handles (front ++ m :: ms) ++ leaked) := by
          apply List.Sublist.append_right
          apply List.Sublist.filterMap
          apply List.Sublist.append_left
          apply List.sublist_cons_self
        apply hnodup.sublist hsublist
      · apply hledger.releaseFrom front howners hnodup
        intro m'
        apply ModuleObject.erasing_subset

theorem Tracked.destroy
    (h : Tracked leaked s) :
  Tracked leaked s.destroy
  where
  owners m hm := by cases hm
  nodup := (List.nodup_append.mp h.nodup).2.1
  ledger := h.ledger.destroyAll h.owners h.nodup

/-- The vector stays as it is when a library is loaded, and nothing of it is released. -/
theorem Tracked.backed
    (h : Tracked leaked s) {Held Live : Nat → Prop} (hheld : ∀ n ∈ handles s.loaded, Held n)
    (hlive : ∀ n ∈ handles s.loaded, Live n) :
  Moment.Backed s.loaded Held Live
  := backed_of_owners h.owners hheld hlive

/-- A library is opened by the loader. -/
theorem Tracked.opens (h : Tracked leaked s) :
  Ledger (fun n => n ∈ handles s.loaded ++ leaked ∨ n = s.opened) (· ∈ handles s.loaded)
    (s.opened + 1) (s.history ++ [⟨.opened s.opened, s.loaded⟩])
  := by
  apply h.ledger.open'
  apply h.backed
  · intro n hn
    apply List.mem_append_left _ hn
  · intro n hn
    exact hn

theorem Tracked.backed_opened
    (h : Tracked leaked s) {Live : Nat → Prop} (hlive : ∀ n ∈ handles s.loaded, Live n) :
  Moment.Backed s.loaded (fun n => n ∈ handles s.loaded ++ leaked ∨ n = s.opened) Live
  := by
  apply h.backed _ hlive
  intro n hn
  exact .inl (List.mem_append_left _ hn)

/-- A library is opened by the loader, and makes an instance. -/
theorem Tracked.creates (h : Tracked leaked s) :
  Ledger (fun n => n ∈ handles s.loaded ++ leaked ∨ n = s.opened)
    (fun n => n ∈ handles s.loaded ∨ n = s.opened) (s.opened + 1)
    (s.history ++ [⟨.opened s.opened, s.loaded⟩] ++ [⟨.created s.opened, s.loaded⟩])
  := by
  apply h.opens.create (.inr rfl)
  apply h.backed_opened
  intro n hn
  exact hn

/-- The handle that the loader has obtained is freed, and its instance does not live. -/
theorem Tracked.settle
    (h : Tracked leaked s) {Live : Nat → Prop} {history : List (Moment φ)}
    (hledger : Ledger (fun n => (n ∈ handles s.loaded ++ leaked ∨ n = s.opened) ∧ n ≠ s.opened)
      Live (s.opened + 1) history)
    (hlive : ∀ n, Live n ↔ n ∈ handles s.loaded) :
  Tracked leaked { s with opened := s.opened + 1, history := history }
  where
  owners := h.owners
  nodup := h.nodup
  ledger := by
    apply hledger.congr
    · intro n
      constructor
      · intro hn
        use .inl hn
        rintro rfl
        apply h.opened_notMem hn
      · rintro ⟨hn | hn, hne⟩
        · exact hn
        · exact absurd hn hne
    · intro n
      apply (hlive n).symm

/-- Nobody owns the handle that the loader has obtained. -/
theorem Tracked.leak
    (h : Tracked leaked s) {Live : Nat → Prop} {history : List (Moment φ)}
    (hledger : Ledger (fun n => n ∈ handles s.loaded ++ leaked ∨ n = s.opened)
      Live (s.opened + 1) history)
    (hlive : ∀ n, Live n ↔ n ∈ handles s.loaded) :
  Tracked (s.opened :: leaked) { s with opened := s.opened + 1, history := history }
  where
  owners := h.owners
  nodup := by
    rw [List.nodup_middle, List.nodup_cons]
    exact ⟨h.opened_notMem, h.nodup⟩
  ledger := by
    apply hledger.congr
    · intro n
      simp only [List.mem_append, List.mem_cons]
      tauto
    · intro n
      apply (hlive n).symm

/-- A module owns the handle that the loader has obtained. -/
theorem Tracked.keep
    (h : Tracked leaked s) {m : ModuleObject φ} (hinstance : m.instance_ = some s.opened)
    (hhandle : m.handleFree = some s.opened) {history : List (Moment φ)}
    (hledger : Ledger (fun n => n ∈ handles s.loaded ++ leaked ∨ n = s.opened)
      (fun n => n ∈ handles s.loaded ∨ n = s.opened) (s.opened + 1) history) :
  Tracked leaked
    { s with loaded := s.loaded ++ [m], opened := s.opened + 1, history := history }
  where
  owners m' hm' := by
    rcases List.mem_append.mp hm' with hm' | hm'
    · apply h.owners m' hm'
    · obtain rfl := List.mem_singleton.mp hm'
      use s.opened
  nodup := by
    rw [handles_append, handles_cons hhandle, List.append_assoc, List.cons_append,
      List.nodup_middle, List.nodup_cons]
    exact ⟨h.opened_notMem, h.nodup⟩
  ledger := by
    rw [handles_append, handles_cons hhandle]
    apply hledger.congr
    · intro n
      simp only [List.mem_append, List.mem_cons, handles, List.filterMap_nil, List.not_mem_nil]
      tauto
    · intro n
      simp [handles]

/-- A handle without an instance is freed by the loader. -/
theorem Tracked.nullopt
    (h : Tracked leaked s) (library : φ × Creation) :
  Tracked leaked (s.loading (some library) [.opened s.opened, .freed s.opened])
  := by
  have hdead : s.opened ∉ handles s.loaded :=
    fun hn => h.opened_notMem (List.mem_append_left _ hn)
  have hledger := h.opens.free (.inr rfl) hdead (h.backed_opened fun n hn => hn)
  rw [List.append_assoc] at hledger
  apply h.settle hledger
  intro n
  rfl

/-- The instance is destroyed when its `getName` throws, and its handle is not freed. -/
theorem Tracked.getName_threw
    (h : Tracked leaked s) (library : φ × Creation) :
  Tracked (s.opened :: leaked)
    (s.loading (some library) [.opened s.opened, .created s.opened, .destroyed s.opened])
  := by
  have hledger := h.creates.destroy (.inr rfl) (h.backed_opened fun n hn => .inl hn)
  rw [List.append_assoc, List.append_assoc] at hledger
  apply h.leak hledger
  intro n
  constructor
  · rintro ⟨hn | hn, hne⟩
    · exact hn
    · exact absurd hn hne
  · intro hn
    use .inl hn
    rintro rfl
    apply h.opened_notMem (List.mem_append_left _ hn)

/-- A module that is not kept is released. -/
theorem Tracked.dropped
    (h : Tracked leaked s) (library : φ × Creation) {m : ModuleObject φ}
    (hinstance : m.instance_ = some s.opened) (hhandle : m.handleFree = some s.opened) :
  Tracked leaked
    { s.loading (some library) [.opened s.opened, .created s.opened] with
      history := (s.loading (some library) [.opened s.opened, .created s.opened]).history
        ++ m.release fun _ => s.loaded }
  := by
  have hne : ∀ n ∈ handles s.loaded, n ≠ s.opened := by
    rintro n hn rfl
    apply h.opened_notMem (List.mem_append_left _ hn)
  have hledger := h.creates.release (fun _ => s.loaded) hinstance hhandle (.inr rfl)
    (h.backed_opened fun n hn => .inl hn) (h.backed_opened fun n hn => ⟨.inl hn, hne n hn⟩)
  rw [List.append_assoc s.history] at hledger
  apply h.settle hledger
  intro n
  constructor
  · rintro ⟨hn | hn, hne⟩
    · exact hn
    · exact absurd hn hne
  · intro hn
    exact ⟨.inl hn, hne n hn⟩

/-- Without a throw in the loader every handle that it has obtained is owned. -/
theorem Tracked.load
    (h : Tracked leaked s) (name : Bytes) (library : Option (φ × Creation))
    (throws reallocates : Bool) :
  ∃ leaked', Tracked leaked' (s.load name library throws reallocates).1
    ∧ (leaked' = [] ↔ leaked = [] ∧ Returns s (.load name library throws reallocates))
  := by
  unfold ModuleObjects.load
  split
  next hloaded =>
    use leaked, h
    cases library <;> simp [Returns, hloaded]
  next hloaded =>
    match library with
    | none =>
        use leaked
        simpa [ModuleLoader.load, loading, Returns] using h
    | some (file, .missing) =>
        use leaked, h.nullopt (file, .missing)
        simp [Returns]
    | some (file, .null) =>
        use leaked, h.nullopt (file, .null)
        simp [Returns]
    | some (file, .threw) =>
        use s.opened :: leaked, h.leak h.opens fun n => Iff.rfl
        simp [Returns, hloaded]
    | some (file, .made none) =>
        use s.opened :: leaked, h.getName_threw (file, .made none)
        simp [Returns, hloaded]
    | some (file, .made (some reported)) =>
        use leaked
        constructor
        · dsimp only [ModuleLoader.load]
          split
          next => apply h.dropped (file, .made (some reported)) rfl rfl
          next =>
            rw [ModuleObject.pushBack_eq]
            have hledger := h.creates
            rw [List.append_assoc] at hledger
            have hkeep := h.keep (m := ⟨⟨reported, name, file⟩, some s.opened, some s.opened⟩)
              rfl rfl hledger
            simpa [loading] using hkeep
        · simp [Returns]

theorem Tracked.step
    (h : Tracked leaked s) {a : Act φ} (hstep : step s a = some t) :
  ∃ leaked', Tracked leaked' t ∧ (leaked' = [] ↔ leaked = [] ∧ Returns s a)
  := by
  unfold ModuleObjects.step at hstep
  split at hstep
  next =>
    cases a with
    | load name library throws reallocates =>
        cases hstep
        apply h.load
    | unload name throws =>
        cases hstep
        use leaked, h.unload name throws
        simp [Returns]
    | destroy =>
        cases hstep
        use leaked, h.destroy
        simp [Returns]
  next => cases hstep

theorem Tracked.run
    (h : Tracked leaked s) {acts : List (Act φ)}
    (hrun : Lts.run ModuleObjects.step s acts = some t) :
  ∃ leaked', Tracked leaked' t
    ∧ (leaked' = [] ↔ leaked = [] ∧ Lts.Guarded ModuleObjects.step Returns s acts)
  := by
  induction acts generalizing s leaked with
  | nil =>
      cases hrun
      use leaked, h
      simp [Lts.Guarded]
  | cons a acts ih =>
      obtain ⟨u, hstep, hrun⟩ := Option.bind_eq_some_iff.mp hrun
      obtain ⟨leaked₁, htracked, hleaked₁⟩ := h.step hstep
      obtain ⟨leaked₂, htracked, hleaked₂⟩ := ih htracked hrun
      use leaked₂, htracked
      rw [hleaked₂, hleaked₁, Lts.Guarded]
      simp [hstep, and_assoc]

/-! ### The end of the manager -/

/-- Nothing is in the vector of a manager that has been destroyed. -/
theorem loaded_eq_nil_of_run
    {acts : List (Act φ)} (hrun : Lts.run ModuleObjects.step init acts = some s)
    (hend : s.alive = false) :
  s.loaded = []
  := by
  have hinv : s.alive = false → s.loaded = [] := by
    apply Lts.run_induction (P := fun _ s => s.alive = false → s.loaded = []) _ _ hrun
    · intro _
      rfl
    · intro _ t a u _ _ hstep
      unfold ModuleObjects.step at hstep
      split at hstep
      next halive =>
        cases a with
        | load name library throws reallocates =>
            cases hstep
            intro hdead
            rw [alive_load, halive] at hdead
            cases hdead
        | unload name throws =>
            cases hstep
            intro hdead
            rw [alive_unload, halive] at hdead
            cases hdead
        | destroy =>
            cases hstep
            intro _
            rfl
      next => cases hstep
  apply hinv hend

/-- Whatever the calls do, a handle is freed after its instance has been destroyed, and not
while its module is in the vector. -/
theorem safe_of_run
    {acts : List (Act φ)} (hrun : Lts.run ModuleObjects.step init acts = some s) :
  Moment.Safe s.history
  := by
  obtain ⟨_, htracked, -⟩ := Tracked.init.run hrun
  apply htracked.ledger.safe

/-- Every handle that has been obtained has been freed once, each at the right time. -/
structure Released (s : ModuleObjects φ) : Prop where
  once : ∀ n, .opened n ∈ Moment.events s.history →
    (Moment.events s.history).count (.freed n) = 1
  safe : Moment.Safe s.history

theorem Tracked.released_iff
    (h : Tracked leaked s) (hloaded : s.loaded = []) :
  Released s ↔ leaked = []
  := by
  have haccounted := h.ledger.accounted
  rw [hloaded] at haccounted
  constructor
  · intro hreleased
    rw [List.eq_nil_iff_forall_not_mem]
    intro n hn
    have howned := haccounted.owned n hn
    have hone := hreleased.once n (Moment.acquired_mem_uses.mp howned)
    apply haccounted.not_released hn
    rw [← List.count_pos_iff, Moment.count_released, hone]
    apply Nat.one_pos
  · rintro rfl
    constructor
    · intro n hn
      rw [← Moment.count_released]
      rcases haccounted.once n (Moment.acquired_mem_uses.mpr hn) with ⟨howned, -⟩ | ⟨-, hcount⟩
      · cases howned
      · exact hcount
    · apply h.ledger.safe

/-- Whatever a manager does, its handles are released once when it is destroyed then, as long
as the libraries do not throw. -/
theorem released_of_run
    {libs : Libraries φ} {dump : Json → Option Bytes} {m u : ModuleManager φ}
    {acts : List ModuleManager.Act} (hm : m.loaded = [])
    (hrun : Lts.run (ModuleManager.step libs dump) m acts = some u) :
  ∃ acts t, Lts.run ModuleObjects.step init acts = some t ∧ t.modules = u.loaded
    ∧ Released t.destroy
  := by
  have hmodules : (init : ModuleObjects φ).modules = m.loaded := hm.symm
  obtain ⟨acts, t, hrun, hreturns, -, hmodules⟩ := exists_run_of_run hrun rfl hmodules
  obtain ⟨leaked, htracked, hleaked⟩ := Tracked.init.run hrun
  obtain rfl := hleaked.mpr ⟨rfl, hreturns⟩
  use acts, t, hrun, hmodules
  rw [htracked.destroy.released_iff rfl]

/-- **After the manager has been destroyed, every handle has been released once, just when no
call of the loader has thrown.** -/
theorem released_iff_returns
    {acts : List (Act φ)} (hrun : Lts.run ModuleObjects.step init acts = some s)
    (hend : s.alive = false) :
  Released s ↔ Lts.Guarded ModuleObjects.step Returns init acts
  := by
  obtain ⟨leaked, htracked, hleaked⟩ := Tracked.init.run hrun
  rw [htracked.released_iff (loaded_eq_nil_of_run hrun hend), hleaked]
  simp

/-- Modules are loaded, in a vector that grows, a library is refused, a module throws when it
is initialised, one is unloaded in front of others, and the manager is destroyed. -/
def orderlyActs : List (Act Bytes) :=
  [.load [0x41] (some ([0x41], .made (some [0x41]))) false true,
    .load [0x42] (some ([0x42], .made (some [0x42]))) false true,
    .load [0x43] (some ([0x43], .null)) false false,
    .load [0x44] (some ([0x44], .made (some [0x44]))) true false,
    .load [0x45] (some ([0x45], .made (some [0x45]))) false true,
    .unload [0x41] false,
    .destroy]

theorem released_iff_returns_orderlyActs :
  ∃ s, Lts.run ModuleObjects.step init orderlyActs = some s ∧ s.alive = false ∧ s.opened = 5
    ∧ Released s
  := by
  obtain ⟨s, hrun⟩ : ∃ s, Lts.run ModuleObjects.step init orderlyActs = some s := ⟨_, rfl⟩
  have hend : s.alive = false ∧ s.opened = 5 := by
    obtain rfl := Option.some.inj hrun
    exact ⟨rfl, rfl⟩
  use s, hrun, hend.1, hend.2
  rw [released_iff_returns hrun hend.1]
  decide

/-- The handle of a library whose `createModule` throws is never released. -/
theorem not_released :
  ¬ ∀ (s : ModuleObjects Bytes) (acts : List (Act Bytes)),
    Lts.run ModuleObjects.step init acts = some s → s.alive = false → Released s
  := by
  intro h
  have hreleased := h (init.load [0x41] (some ([0x41], .threw)) false false).1.destroy
    [.load [0x41] (some ([0x41], .threw)) false false, .destroy] rfl rfl
  have hone := hreleased.once 0 (by decide)
  revert hone
  decide

end ModuleObjects

end NexusMainframe
