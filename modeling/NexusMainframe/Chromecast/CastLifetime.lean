import NexusMainframe.Chromecast.CastAccess
import Mathlib.Logic.Relation

/-!
# The life of a cast channel

`loadMedia` asks for the transport id and then uses the channel. The commands of a device run
one at a time, under the mutex of the module, and the receive thread of a channel delivers
messages during all of them until it is joined. So the commands are taken here in the pieces
between which a message can come. A status can put the transport id in only while a channel is
there, and the channel goes only when its thread is joined: the channel is there whenever there
is a transport id, but for the two last pieces of `disconnect`.
-/

namespace NexusMainframe

namespace CastDevice

/-! ### Commands in pieces -/

/-- How far the command has come that runs. -/
inductive Position where
  /-- In `connect`: the new channel is in place, the one before is to be destroyed. -/
  | assigned
  /-- In `connect`: the new channel is to connect. -/
  | created
  /-- In `connect`: the new channel has connected, and its thread runs. -/
  | greeting
  /-- In `disconnect`: the thread of the channel is to be joined. -/
  | leaving
  /-- In `disconnect`: the channel is to be reset. -/
  | joined
  /-- In `disconnect`: the ids are to be cleared. -/
  | reset
  /-- In `loadMedia`: `channel_` is to be dereferenced, as the transport id was not empty. -/
  | loading (transport : Bytes)
  /-- In `loadMedia`: the message to the app is to be sent. -/
  | loaded
deriving DecidableEq

/-- A device, the command that runs, and whether there are receive threads, of the channel in
place and of the one before it, that still deliver messages. -/
structure Threads where
  device : CastDevice
  command : Option Position
  receiving : Bool
  leftover : Bool

namespace Threads

/-- A device before its first command. -/
def init : Threads where
  device := {}
  command := none
  receiving := false
  leftover := false

/-- The pieces of the commands, and what the receive threads do. -/
inductive Step (env : Env) : Threads → Threads → Prop where
  | connect {s} (idle : s.command = none) :
      Step env s { s with
        device := { s.device with channel := some .unconnected }
        command := some .assigned
        receiving := false
        leftover := s.receiving }
  | destroyed {s} (h : s.command = some .assigned) :
      Step env s { s with command := some .created, leftover := false }
  | failed {s} (h : s.command = some .created) : Step env s { s with command := none }
  | opened {s} (h : s.command = some .created) :
      Step env s { s with
        device := { s.device with channel := some .up }
        command := some .greeting
        receiving := true }
  | refused {s} (h : s.command = some .greeting) : Step env s { s with command := none }
  | greeted {s} (h : s.command = some .greeting) :
      Step env s { s with
        device := { s.device with requestId := s.device.requestId + 1 }
        command := none }
  | disconnectNone {s} (idle : s.command = none) (h : s.device.channel = none) : Step env s s
  | disconnect {s} (idle : s.command = none) (h : s.device.channel ≠ none) :
      Step env s { s with command := some .leaving }
  | joined {s} (h : s.command = some .leaving) :
      Step env s { s with command := some .joined, receiving := false }
  /-- A thread that joins itself throws. -/
  | joinThrew {s} (h : s.command = some .leaving) : Step env s { s with command := none }
  | reset {s} (h : s.command = some .joined) :
      Step env s { s with
        device := { s.device with channel := none }
        command := some .reset }
  | cleared {s} (h : s.command = some .reset) :
      Step env s { s with
        device := { s.device with sessionId := [], transportId := [], mediaSessionId := -1 }
        command := none }
  | loadNone {s} (idle : s.command = none) (h : s.device.transportId = []) : Step env s s
  | load {s} (idle : s.command = none) (h : s.device.transportId ≠ []) :
      Step env s { s with command := some (.loading s.device.transportId) }
  | loadConnected {s} {transport : Bytes} (h : s.command = some (.loading transport))
      (there : s.device.channel ≠ none) : Step env s { s with command := some .loaded }
  | loaded {s} (h : s.command = some .loaded) :
      Step env s { s with
        device := { s.device with requestId := s.device.requestId + 1 }
        command := none }
  /-- The other commands test `channel_` themselves. -/
  | other {s} (idle : s.command = none) (requestId : Int32) :
      Step env s { s with device := { s.device with requestId } }
  | receive {s} {msg : CastMessage} {d : CastDevice}
      (running : s.receiving = true ∨ s.leftover = true)
      (h : afterMessage env msg s.device = some d) : Step env s { s with device := d }
  | lose {s} (running : s.receiving = true) :
      Step env s { s with
        device := { s.device with channel := some .lost }
        receiving := false }
  | leftoverEnds {s} : Step env s { s with leftover := false }

/-- The threads can get here. -/
def Reachable (env : Env) (s : Threads) : Prop :=
  Relation.ReflTransGen (Step env) init s

/-! ### The invariant -/

/-- No thread delivers messages without a channel in place, nor one that has been joined; the
thread of the channel before runs only until that is destroyed; and without a channel there is
no transport id, until the ids are to be cleared. -/
structure Inv (s : Threads) : Prop where
  alone : s.device.channel = none → s.receiving = false
  leftover : s.leftover = true → s.command = some .assigned
  silent : s.command = some .joined → s.receiving = false
  present : ∀ p, s.command = some p → p ≠ .reset → s.device.channel ≠ none
  gone : s.command = some .reset → s.device.channel = none
  ids : s.command ≠ some .reset → s.device.channel = none → s.device.transportId = []

theorem Inv.init :
  Inv init
  := by
  constructor <;> simp [Threads.init]

variable {env : Env}

theorem afterMessage_channel {msg : CastMessage} {d d' : CastDevice}
    (h : afterMessage env msg d = some d') :
  d'.channel = d.channel
  := by
  rw [afterMessage_eq] at h
  cases hreport : handleMessage env msg with
  | receiver status =>
      rw [hreport] at h
      obtain rfl := Option.some.inj h
      rfl
  | media status =>
      rw [hreport] at h
      obtain rfl := Option.some.inj h
      rfl
  | ignored =>
      rw [hreport] at h
      obtain rfl := Option.some.inj h
      rfl
  | undefined =>
      rw [hreport] at h
      cases h

/-- A thread that delivers messages has a channel in place. -/
theorem Inv.channel_ne_none {s : Threads} (h : Inv s)
    (running : s.receiving = true ∨ s.leftover = true) :
  s.device.channel ≠ none
  := by
  rcases running with hreceiving | hleftover
  · intro hnone
    rw [h.alone hnone] at hreceiving
    cases hreceiving
  · apply h.present .assigned (h.leftover hleftover)
    decide

/-- With a channel in place there is little to keep. -/
theorem Inv.of_channel {s : Threads} (hchannel : s.device.channel ≠ none)
    (hreset : s.command ≠ some .reset) (hleftover : s.leftover = true → s.command = some .assigned)
    (hsilent : s.command = some .joined → s.receiving = false) :
  Inv s
  := by
  constructor
  · intro hnone
    exact (hchannel hnone).elim
  · exact hleftover
  · exact hsilent
  · intro p hp hne
    exact hchannel
  · intro h
    exact (hreset h).elim
  · intro _ hnone
    exact (hchannel hnone).elim

/-- The thread of a channel before the one in place runs at one position only. -/
theorem Inv.not_leftover {s : Threads} (h : Inv s) (hc : s.command ≠ some .assigned) :
  ¬ s.leftover = true
  := fun hleftover => hc (h.leftover hleftover)

theorem Inv.step {s t : Threads} (h : Inv s) (hstep : Step env s t) :
  Inv t
  := by
  cases hstep with
  | connect idle => apply Inv.of_channel <;> simp
  | destroyed hc =>
      have hchannel := h.present _ hc (by decide)
      apply Inv.of_channel <;> simp [hchannel]
  | failed hc =>
      have hchannel := h.present _ hc (by decide)
      have hleftover := h.not_leftover (by simp [hc])
      apply Inv.of_channel <;> simp [hchannel, hleftover]
  | opened hc =>
      have hleftover := h.not_leftover (by simp [hc])
      apply Inv.of_channel <;> simp [hleftover]
  | refused hc =>
      have hchannel := h.present _ hc (by decide)
      have hleftover := h.not_leftover (by simp [hc])
      apply Inv.of_channel <;> simp [hchannel, hleftover]
  | greeted hc =>
      have hchannel := h.present _ hc (by decide)
      have hleftover := h.not_leftover (by simp [hc])
      apply Inv.of_channel <;> simp [hchannel, hleftover]
  | disconnectNone => exact h
  | disconnect idle hchannel =>
      have hleftover := h.not_leftover (by simp [idle])
      apply Inv.of_channel <;> simp [hchannel, hleftover]
  | joined hc =>
      have hchannel := h.present _ hc (by decide)
      have hleftover := h.not_leftover (by simp [hc])
      apply Inv.of_channel <;> simp [hchannel, hleftover]
  | joinThrew hc =>
      have hchannel := h.present _ hc (by decide)
      have hleftover := h.not_leftover (by simp [hc])
      apply Inv.of_channel <;> simp [hchannel, hleftover]
  | reset hc =>
      -- no thread is left that could deliver a message
      have hsilent := h.silent hc
      have hleftover := h.not_leftover (by simp [hc])
      constructor <;> simp [hsilent, hleftover]
  | cleared hc =>
      have hsilent := h.alone (h.gone hc)
      have hleftover := h.not_leftover (by simp [hc])
      constructor <;> simp [hsilent, hleftover]
  | loadNone => exact h
  | load idle htransport =>
      have hchannel := mt (h.ids (by simp [idle])) htransport
      have hleftover := h.not_leftover (by simp [idle])
      apply Inv.of_channel <;> simp [hchannel, hleftover]
  | loadConnected hc hchannel =>
      have hleftover := h.not_leftover (by simp [hc])
      apply Inv.of_channel <;> simp [hchannel, hleftover]
  | loaded hc =>
      have hchannel := h.present _ hc (by decide)
      have hleftover := h.not_leftover (by simp [hc])
      apply Inv.of_channel <;> simp [hchannel, hleftover]
  | other idle requestId =>
      constructor
      · exact h.alone
      · exact h.leftover
      · exact h.silent
      · exact h.present
      · exact h.gone
      · exact h.ids
  | receive running hd =>
      have hchannel := h.channel_ne_none running
      rw [← afterMessage_channel hd] at hchannel
      have hreset : s.command ≠ some .reset := fun hc => h.channel_ne_none running (h.gone hc)
      apply Inv.of_channel
      · exact hchannel
      · exact hreset
      · exact h.leftover
      · exact h.silent
  | lose running =>
      have hchannel := h.channel_ne_none (Or.inl running)
      have hreset : s.command ≠ some .reset := fun hc => hchannel (h.gone hc)
      apply Inv.of_channel
      · simp
      · exact hreset
      · exact h.leftover
      · simp
  | leftoverEnds =>
      constructor
      · exact h.alone
      · simp
      · exact h.silent
      · exact h.present
      · exact h.gone
      · exact h.ids

theorem Reachable.inv {s : Threads} (h : Reachable env s) :
  Inv s
  := by
  induction h with
  | refl => apply Inv.init
  | tail _ hstep ih => apply ih.step hstep

/-- In every reachable state a device with a transport id has a channel in place: between the
commands, and during them until `disconnect`, whose thread is joined by then, takes the channel
away to clear the ids next. And `loadMedia` never dereferences a null pointer. -/
theorem channelInPlace_of_reachable {s : Threads} (h : Reachable env s) :
  (s.command ≠ some .reset → s.device.transportId ≠ [] → s.device.channel ≠ none)
    ∧ ∀ transport, s.command = some (.loading transport) → s.device.channel ≠ none
  := by
  constructor
  · intro hc htransport
    apply mt (h.inv.ids hc) htransport
  · intro transport hc
    apply h.inv.present _ hc
    simp

/-! ### Whole commands -/

/-- A device when no command runs. -/
def resting (d : CastDevice) : Threads where
  device := d
  command := none
  receiving := d.channel = some .up
  leftover := false

/-- The states that pieces of commands and messages lead to. -/
def Leads (env : Env) : Threads → Threads → Prop :=
  Relation.ReflTransGen (Step env)

theorem Leads.then_step {s t u : Threads} (h : Leads env s t) (hstep : Step env t u) :
  Leads env s u
  := Relation.ReflTransGen.tail h hstep

/-- The first pieces of every `connect`. -/
theorem leads_created (d : CastDevice) :
  Leads env (resting d)
    { device := { d with channel := some .unconnected }
      command := some .created
      receiving := false
      leftover := false }
  := by
  have hstart : Leads env (resting d) (resting d) := Relation.ReflTransGen.refl
  exact (hstart.then_step (.connect rfl)).then_step (.destroyed rfl)

theorem leads_connect (d : CastDevice) (outcome : Outcome) :
  Leads env (resting d) (resting (d.connect outcome))
  := by
  have hcreated : Leads env (resting d) _ := leads_created d
  cases outcome with
  | failed => exact hcreated.then_step (.failed rfl)
  | refused => exact (hcreated.then_step (.opened rfl)).then_step (.refused rfl)
  | connected => exact (hcreated.then_step (.opened rfl)).then_step (.greeted rfl)

theorem leads_disconnect {d : CastDevice} (h : d.channel ≠ none) :
  Leads env (resting d) (resting d.disconnect)
  := by
  have hstart : Leads env (resting d) (resting d) := Relation.ReflTransGen.refl
  have hreset := ((hstart.then_step (.disconnect rfl h)).then_step (.joined rfl)).then_step
    (.reset rfl)
  have hcleared := hreset.then_step (.cleared rfl)
  obtain ⟨link, hlink⟩ := Option.ne_none_iff_exists'.mp h
  have hdisconnect : d.disconnect
      = { d with channel := none, sessionId := [], transportId := [], mediaSessionId := -1 } := by
    rw [CastDevice.disconnect, hlink]
  rw [hdisconnect]
  exact hcleared

/-- The steps of the device, each a command or a message as a whole, are made of these. -/
theorem leads_of_step {s u : System} {a : Act} (h : CastDevice.Step env s a u) :
  Leads env (resting s.device) (resting u.device)
  := by
  have hstart : Leads env (resting s.device) (resting s.device) := Relation.ReflTransGen.refl
  have hreceive : ∀ (msg : CastMessage) {d : CastDevice}, s.device.channel = some .up →
      afterMessage env msg s.device = some d → Leads env (resting s.device) (resting d) := by
    intro msg d hup hd
    have hrunning : (resting s.device).receiving = true := decide_eq_true hup
    have hstep := hstart.then_step (.receive (Or.inl hrunning) hd)
    have hsame : resting d = { resting s.device with device := d } := by
      rw [resting, afterMessage_channel hd]
      rfl
    rw [hsame]
    exact hstep
  cases h with
  | connectFailed => exact leads_connect s.device .failed
  | connect outcome => exact leads_connect s.device outcome
  | disconnectNone => exact hstart
  | disconnect link hlink =>
      have hchannel : s.device.channel ≠ none := by
        rw [hlink]
        simp
      exact leads_disconnect hchannel
  | lose hup =>
      have hrunning : (resting s.device).receiving = true := decide_eq_true hup
      exact hstart.then_step (.lose hrunning)
  | ignored => exact hstart
  | receiver msg status up hreport =>
      apply hreceive msg up
      rw [afterMessage_eq, hreport]
      rfl
  | media msg status up hreport =>
      apply hreceive msg up
      rw [afterMessage_eq, hreport]
      rfl
  | beginNone => exact hstart
  | begin command call device hbegin =>
      have hdevice : device = { s.device with requestId := s.device.requestId + 1 } := by
        unfold CastDevice.begin at hbegin
        split at hbegin
        next => cases hbegin
        next => exact (Prod.mk.inj (Option.some.inj hbegin)).2.symm
      rw [hdevice]
      exact hstart.then_step (.other rfl _)
  | finish => exact hstart

/-- A connection, an app, and `loadMedia` in front of the dereference. -/
theorem channelInPlace_loading :
  ∃ s, Reachable session s ∧ s.command = some (.loading web1) ∧ s.device.transportId ≠ []
    ∧ s.device.channel ≠ none
  := by
  have hconnect : Reachable session (resting (CastDevice.connect {} .connected)) :=
    leads_connect {} .connected
  have hstatus : afterMessage session (message nsReceiver (receiverJson web1))
      (CastDevice.connect {} .connected)
        = some ((CastDevice.connect {} .connected).takeReceiverStatus
            { transportId := web1, isIdleScreen := false }) := by
    rw [afterMessage_eq, handle_receiverJson valid_web1]
    rfl
  have hload := (Leads.then_step hconnect (.receive (Or.inl rfl) hstatus)).then_step
    (.load rfl (by decide))
  obtain ⟨s, hs⟩ : ∃ s : Threads, s =
      { device := (CastDevice.connect {} .connected).takeReceiverStatus
          { transportId := web1, isIdleScreen := false }
        command := some (.loading web1)
        receiving := true
        leftover := false } := ⟨_, rfl⟩
  have hreachable : Reachable session s := by
    rw [hs]
    exact hload
  have hcommand : s.command = some (.loading web1) := by rw [hs]
  have htransport : s.device.transportId ≠ [] := by
    rw [hs]
    decide
  use s, hreachable, hcommand, htransport
  exact (channelInPlace_of_reachable hreachable).2 web1 hcommand

end Threads

end CastDevice

end NexusMainframe
