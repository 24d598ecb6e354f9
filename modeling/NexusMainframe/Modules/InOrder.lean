import NexusMainframe.Modules.ModuleRestart

/-!
# The same modules after a restart

Where no library is loaded twice and no module is unloaded under another name than it was loaded by,
the state store has the names of the loaded modules in their order, and a restart brings the manager
back as it was.
-/

namespace NexusMainframe

namespace ModuleManager

variable {φ : Type}

/-- The names in the store are those that the modules were loaded by, in order, and none is there
twice. -/
structure InOrder (libs : Libraries φ) (parse : Bytes → Option Json) (s : ModuleManager φ) :
    Prop where
  tracked : Tracked libs parse s
  names : s.names = s.loaded.map Module.path
  nodup : s.names.Nodup

/-- A library to load is not loaded, unless another module reports its name; the first module with a
name to unload was loaded by that name. -/
def KeepsOrder (s : ModuleManager φ) : Call → Prop
  | .load name => isLoaded s.loaded name = true ∨ ∀ m ∈ s.loaded, m.path ≠ name
  | .unload name => ∀ m ∈ s.loaded.find? fun m => m.name = name, m.path = name

namespace InOrder

variable {libs : Libraries φ} {c : Json.Codec} {s : ModuleManager φ} {name : Bytes}

theorem load
    (hc : c.Spec) (h : InOrder libs c.parse s) (hname : KeepsOrder s (.load name))
    (hvalid : Utf8.Valid name) :
  InOrder libs c.parse (s.load libs c.dump name).1
  := by
  have htracked := h.tracked.load hc (.inr (.inr hvalid))
  revert htracked
  unfold ModuleManager.load
  split
  next => exact fun _ => h
  next hnot =>
    split
    next => exact fun _ => h
    next m hm =>
      obtain rfl := Libraries.path_of_load hm
      have hnew : m.path ∉ s.names := by
        rw [h.names, List.mem_map]
        rintro ⟨m', hm', heq⟩
        exact hname.resolve_left hnot m' hm' heq
      have hadd : ModuleStateStore.add s.names m.path = s.names ++ [m.path] := by
        simp [ModuleStateStore.add, ModuleStateStore.contains, hnew]
      have hdump :
          c.dump (ModuleStateStore.toJson (ModuleStateStore.add s.names m.path)) ≠ none := by
        apply dump_toJson_ne_none hc
        intro name hmem
        rcases ModuleStateStore.mem_add.mp hmem with hmem | rfl
        · exact h.tracked.valid name hmem
        · exact hvalid
      dsimp only [saveNames]
      rw [if_neg hdump]
      intro htracked
      refine ⟨htracked, ?_, ?_⟩
      · dsimp only
        rw [hadd, h.names, List.map_append, List.map_singleton]
      · dsimp only
        rw [hadd, List.nodup_append_comm]
        exact List.nodup_cons.mpr ⟨hnew, h.nodup⟩

/-- The manager after `unload`, whether the store can be saved or not. -/
theorem fst_unload (dump : Json → Option Bytes) (hloaded : isLoaded s.loaded name = true) :
  (s.unload dump name).1
    = { s with
        loaded := s.loaded.eraseP fun m => m.name = name
        names := ModuleStateStore.remove s.names name }.saveNames dump
  := by
  rw [ModuleManager.unload, if_pos hloaded]
  dsimp only
  split <;> rfl

theorem unload
    (hc : c.Spec) (h : InOrder libs c.parse s) (hname : KeepsOrder s (.unload name)) :
  InOrder libs c.parse (s.unload c.dump name).1
  := by
  have htracked := h.tracked.unload hc hname
  cases hloaded : isLoaded s.loaded name with
  | false =>
      rw [ModuleManager.unload, hloaded]
      exact h
  | true =>
      obtain ⟨m', hm', hname'⟩ := isLoaded_iff.mp hloaded
      obtain ⟨m, before, rest, hbefore, hm, heq, herase⟩ :=
        List.exists_of_eraseP (p := fun m : Module φ => decide (m.name = name)) hm'
          (by simpa using hname')
      have hbefore : ∀ m' ∈ before, m'.name ≠ name := by
        intro m' hm'
        simpa using hbefore m' hm'
      have hpath : m.path = name := by
        apply hname
        rw [heq, List.find?_append, List.find?_eq_none.mpr (by simpa using hbefore)]
        simp [of_decide_eq_true hm]
      have hnames := h.names
      have hnodup := h.nodup
      rw [heq, List.map_append, List.map_cons, hpath] at hnames
      rw [hnames] at hnodup
      -- the name stands in the store once
      have hremove : ModuleStateStore.remove s.names name = (before ++ rest).map Module.path := by
        obtain ⟨-, hrest, hother⟩ := List.nodup_append.mp hnodup
        have hbefore' : ∀ n ∈ before.map Module.path, n ≠ name :=
          fun n hn => hother n hn name List.mem_cons_self
        have hrest' : ∀ n ∈ rest.map Module.path, n ≠ name := by
          rintro n hn rfl
          exact (List.nodup_cons.mp hrest).1 hn
        rw [hnames, ModuleStateStore.remove, List.filter_append, List.map_append,
          List.filter_cons_of_neg (by simp), List.filter_eq_self.mpr (by simpa using hbefore'),
          List.filter_eq_self.mpr (by simpa using hrest')]
      refine ⟨htracked, ?_, ?_⟩
      · rw [fst_unload c.dump hloaded]
        dsimp only [saveNames]
        rw [herase, hremove]
      · rw [fst_unload c.dump hloaded]
        exact h.nodup.sublist List.filter_sublist

/-- A restart brings the manager back as it was. -/
theorem restart (h : InOrder libs c.parse s) :
  (ModuleManager.restart c.parse s).loadFromState libs = s
  := by
  have hload : ∀ name ∈ s.names, libs.load name ≠ none := by
    intro name hmem
    obtain ⟨m, hm, rfl⟩ := (h.tracked.mem_names name).mp hmem
    rw [h.tracked.load_path m hm]
    simp
  have hrestored : s.names.foldl (restore libs) [] = s.loaded := by
    rw [foldl_restore hload (fun _ _ => rfl) h.tracked.names_ne_name, List.nil_append, h.names,
      List.filterMap_map]
    have hsame : ∀ m ∈ s.loaded, (libs.load ∘ Module.path) m = some m := h.tracked.load_path
    rw [List.filterMap_congr hsame, List.filterMap_some]
  rw [loadFromState, ModuleManager.restart, h.tracked.saved]
  dsimp only
  rw [hrestored]

theorem init : InOrder libs c.parse (ModuleManager.init : ModuleManager φ) where
  tracked := Tracked.init rfl rfl rfl
  names := rfl
  nodup := List.nodup_nil

end InOrder

end ModuleManager

end NexusMainframe
