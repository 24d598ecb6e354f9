import NexusMainframe.Lib.WriteBehind
import NexusMainframe.Services.Requests

/-!
# The files of the services

The service functions save a registry right after they have changed it, so each of the two
files has its registry as it was after all changes by requests that are done, however the
requests are interleaved.
-/

namespace NexusMainframe

open Interleaving (Prog File Idle Pool Act next)

variable (merge : Json → Json → Json)

/-- The devices and their file. -/
def deviceFile : File (Op.apply merge) DeviceRegistry where
  view s := s.memory.devices
  file s := s.files.devices
  save := .saveDevices
  file_save s := rfl
  view_save s := rfl
  file_of_ne op s h := by
    cases op with
    | saveDevices => cases h rfl
    | _ => rfl

/-- The rooms and their file. -/
def roomFile : File (Op.apply merge) RoomRegistry where
  view s := s.memory.rooms
  file s := s.files.rooms
  save := .saveRooms
  file_save s := rfl
  view_save s := rfl
  file_of_ne op s h := by
    cases op with
    | saveRooms => cases h rfl
    | _ => rfl

/-! ### The programs save what they change -/

section SavesAfter

variable {merge} {ξ : Type} {f : File (Op.apply merge) ξ}

/-- A call that does not change the part, and whose answer no ends the program. -/
theorem savesAfter_check
    {op : Op} {result : Result} {rest : Prog Op Bool Result}
    (h : ∀ s, f.view (op.apply merge s).1 = f.view s) (hrest : f.SavesAfter rest) :
  f.SavesAfter (.call op fun a => if !a then .done result else rest)
  := by
  apply File.savesAfter_call_of_frame h
  intro a
  cases a with
  | false => trivial
  | true => apply hrest

/-- A call that may change the part, and whose answer no ends the program. -/
theorem savesAfter_change
    {op : Op} {result : Result} {k : Bool → Prog Op Bool Result}
    (hview : ∀ s t : Store, s.memory = t.memory → f.view s = f.view t)
    (hk : f.SavesAfter (.call f.save k)) :
  f.SavesAfter (.call op fun a => if !a then .done result else .call f.save k)
  := by
  apply File.savesAfter_call
  · intro s hne
    cases ha : (op.apply merge s).2 with
    | false => cases hne (hview _ _ (Op.memory_of_false ha))
    | true => exact ⟨k, rfl⟩
  · intro a
    cases a with
    | false => trivial
    | true => apply hk

/-- A call that may change the part, and that is followed by a save. -/
theorem savesAfter_call_save
    {op : Op} {k : Bool → Prog Op Bool Result} (hk : f.SavesAfter (.call f.save k)) :
  f.SavesAfter (.call op fun _ => .call f.save k)
  := by
  apply File.savesAfter_call
  · intro s _
    exact ⟨k, rfl⟩
  · intro _
    apply hk

theorem savesAfter_save (result : Result) :
  f.SavesAfter (.call f.save fun _ => .done result)
  := File.savesAfter_call_of_frame f.view_save fun _ => trivial

end SavesAfter

theorem deviceFile_savesAfter (q : Request) :
  (deviceFile merge).SavesAfter q.program
  := by
  have hview : ∀ s t : Store, s.memory = t.memory →
      (deviceFile merge).view s = (deviceFile merge).view t := fun s t h =>
    congrArg Registries.devices h
  have hrooms : ∀ result, (deviceFile merge).SavesAfter
      (.call .saveRooms fun _ => .done result : Prog Op Bool Result) := fun result =>
    File.savesAfter_call_of_frame (fun s => rfl) fun _ => trivial
  cases q with
  | deviceAdd id name type =>
      simp only [Request.program, DeviceService.add]
      split
      next => trivial
      next => apply savesAfter_change hview (savesAfter_save _)
  | deviceRemove id =>
      apply savesAfter_check fun s => rfl
      apply savesAfter_call_save (savesAfter_save _)
  | deviceCommand id payload =>
      apply savesAfter_check fun s => rfl
      apply savesAfter_call_save (savesAfter_save _)
  | roomAdd id name =>
      simp only [Request.program, RoomService.add]
      split
      next => trivial
      next => apply savesAfter_check (fun s => rfl) (hrooms _)
  | roomRemove id =>
      apply savesAfter_check fun s => rfl
      apply File.savesAfter_call_of_frame (fun s => rfl) fun _ => hrooms _
  | roomAddDevice roomId deviceId =>
      apply savesAfter_check fun s => rfl
      apply savesAfter_check fun s => rfl
      apply savesAfter_check (fun s => rfl) (hrooms _)
  | roomRemoveDevice roomId deviceId =>
      apply savesAfter_check fun s => rfl
      apply savesAfter_check (fun s => rfl) (hrooms _)

theorem roomFile_savesAfter (q : Request) :
  (roomFile merge).SavesAfter q.program
  := by
  have hview : ∀ s t : Store, s.memory = t.memory →
      (roomFile merge).view s = (roomFile merge).view t := fun s t h =>
    congrArg Registries.rooms h
  have hdevices : ∀ result, (roomFile merge).SavesAfter
      (.call .saveDevices fun _ => .done result : Prog Op Bool Result) := fun result =>
    File.savesAfter_call_of_frame (fun s => rfl) fun _ => trivial
  cases q with
  | deviceAdd id name type =>
      simp only [Request.program, DeviceService.add]
      split
      next => trivial
      next => apply savesAfter_check (fun s => rfl) (hdevices _)
  | deviceRemove id =>
      apply savesAfter_check fun s => rfl
      apply File.savesAfter_call_of_frame (fun s => rfl) fun _ => hdevices _
  | deviceCommand id payload =>
      apply savesAfter_check fun s => rfl
      apply File.savesAfter_call_of_frame (fun s => rfl) fun _ => hdevices _
  | roomAdd id name =>
      simp only [Request.program, RoomService.add]
      split
      next => trivial
      next => apply savesAfter_change hview (savesAfter_save _)
  | roomRemove id =>
      apply savesAfter_check fun s => rfl
      apply savesAfter_call_save (savesAfter_save _)
  | roomAddDevice roomId deviceId =>
      apply savesAfter_check fun s => rfl
      apply savesAfter_check fun s => rfl
      apply savesAfter_change hview (savesAfter_save _)
  | roomRemoveDevice roomId deviceId =>
      apply savesAfter_check fun s => rfl
      apply savesAfter_change hview (savesAfter_save _)

/-- However requests are interleaved, from files that have the registries: each file has its
registry as it was after all changes by requests that are done, and both have the registries
when no request is in flight. -/
theorem files_recent
    {s : Store} (hfiles : s.files = s.memory) {acts : List (Act Request)}
    {p : Pool Store Request Op Bool Result}
    (hrun : Lts.run (next (Op.apply merge) Request.program) ⟨s, []⟩ acts = some p) :
  (deviceFile merge).IsRecent Request.program ⟨s, []⟩ acts p
    ∧ (roomFile merge).IsRecent Request.program ⟨s, []⟩ acts p
    ∧ (Idle p → p.shared.files = p.shared.memory)
  := by
  have hdevices := File.tracked_of_run (f := deviceFile merge) rfl
    (congrArg Registries.devices hfiles) (deviceFile_savesAfter merge) hrun
  have hrooms := File.tracked_of_run (f := roomFile merge) rfl
    (congrArg Registries.rooms hfiles) (roomFile_savesAfter merge) hrun
  use hdevices.isRecent, hrooms.isRecent
  intro hidle
  have hd : p.shared.files.devices = p.shared.memory.devices := hdevices.file_eq_of_idle hidle
  have hr : p.shared.files.rooms = p.shared.memory.rooms := hrooms.file_eq_of_idle hidle
  calc
    p.shared.files = ⟨p.shared.files.devices, p.shared.files.rooms⟩ := rfl
    _ = ⟨p.shared.memory.devices, p.shared.memory.rooms⟩ := by rw [hd, hr]
    _ = p.shared.memory := rfl

/-- A device is registered while a room is created and another is not. -/
def someActs : List (Act Request) :=
  [.start (.roomAdd (Bytes.ofAscii "r1") (Bytes.ofAscii "Hall")),
    .start (.deviceAdd (Bytes.ofAscii "d1") (Bytes.ofAscii "Lamp") (Bytes.ofAscii "light")),
    .step 0, .step 1, .start (.roomAdd (Bytes.ofAscii "r1") (Bytes.ofAscii "Attic")), .step 2,
    .step 1, .step 0]

theorem files_recent_someActs :
  ∃ p, Lts.run (next (Op.apply fun _ patch => patch) Request.program) ⟨⟨⟨∅, ∅⟩, ⟨∅, ∅⟩⟩, []⟩
      someActs = some p
    ∧ p.shared.files = p.shared.memory
  := by
  obtain ⟨p, hp⟩ : ∃ p, Lts.run (next (Op.apply fun _ patch => patch) Request.program)
      ⟨⟨⟨∅, ∅⟩, ⟨∅, ∅⟩⟩, []⟩ someActs = some p := ⟨_, rfl⟩
  use p, hp
  apply (files_recent _ rfl hp).2.2
  obtain rfl := Option.some.inj hp
  decide

end NexusMainframe
