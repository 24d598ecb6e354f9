import NexusMainframe.Mqtt.Lifecycle

/-!
# Who closes the socket of an MQTT client

The client owns the socket that it got last until it closes it. In a run that calls `connect`
only when it owns none, and reaches the end of a `disconnect` or of the destructor only when
its socket is not closed yet, every socket is closed once and no thread is overwritten; in any
other run that ends, one is closed twice, or never, or the process is terminated.
-/

namespace NexusMainframe

namespace MQTTClient

namespace Life

open Ownership

/-- The socket that the client has is this one, and is not closed. -/
def Owned (s : Life) (n : Nat) : Prop :=
  0 ≤ s.client.sock ∧ n + 1 = s.obtained ∧ .released n ∉ s.uses

/-- Nothing is closed that is not open. -/
def ClosesOpen (uses : List (Use Nat)) : Prop :=
  ∀ pre n post, uses = pre ++ .released n :: post → .acquired n ∈ pre ∧ .released n ∉ pre

/-- Every socket has been closed once, nothing else has been closed, and no thread has been
overwritten. -/
structure Clean (s : Life) : Prop where
  once : ∀ n < s.obtained, s.uses.count (.released n) = 1
  closesOpen : ClosesOpen s.uses
  alive : s.phase ≠ .terminated

/-- The client is connected when it owns no socket, and a `disconnect` or the destructor ends
when the client's socket is not closed. -/
def Careful (s : Life) : Act → Prop
  | .connect _ _ _ => ∀ n, ¬ s.Owned n
  | .join => 0 ≤ s.client.sock → .released (s.obtained - 1) ∉ s.uses
  | _ => True

/-! ### In every run -/

/-- What holds in any case. The threads are joinable while a socket is open. -/
structure Recorded (s : Life) : Prop where
  acquired : ∀ n, .acquired n ∈ s.uses ↔ n < s.obtained
  used : ∀ n, .used n ∉ s.uses
  sock : 0 ≤ s.client.sock → 0 < s.obtained
  released : ∀ pre n post, s.uses = pre ++ .released n :: post → .acquired n ∈ pre
  threads : s.client.rxThread = true ∨ s.client.pingThread = true →
    ∃ n < s.obtained, .released n ∉ s.uses
  destroyed : s.phase = .destroyed → 0 ≤ s.client.sock → .released (s.obtained - 1) ∈ s.uses

section

variable {s u : Life}

theorem Recorded.lt_of_released (h : s.Recorded) {n : Nat} (hn : .released n ∈ s.uses) :
  n < s.obtained
  := by
  obtain ⟨pre, post, huses⟩ := List.append_of_mem hn
  apply (h.acquired n).mp
  rw [huses]
  apply List.mem_append_left _ (h.released pre n post huses)

theorem Recorded.init (clientId : Bytes) :
  (Life.init clientId).Recorded
  where
  acquired n := by simp [Life.init]
  used n := by simp [Life.init]
  sock h := by cases h
  released pre n post h := by
    cases pre <;> cases h
  threads h := by rcases h with h | h <;> cases h
  destroyed h := by cases h

/-- The sockets that are recorded after a call of `connect` without one. -/
theorem Recorded.noSocket
    (h : s.Recorded) {sock : Int} (hsock : sock < 0) (hphase : s.phase = .idle) :
  (s.connecting { s.client with sock := sock }).Recorded
  where
  acquired := h.acquired
  used := h.used
  sock hnonneg := (not_lt.mpr hnonneg hsock).elim
  released := h.released
  threads := h.threads
  destroyed hdestroyed := by cases hphase.symm.trans hdestroyed

/-- A new socket is open. -/
theorem Recorded.obtain'
    (h : s.Recorded) {client : MQTTClient} {phase : Phase} (hphase : phase ≠ .destroyed)
    {receiver : Receiver} {received : Option Bytes} :
  Recorded { s.obtain' client with
    phase := phase, receiver := receiver, received := received }
  where
  acquired n := by
    simp only [Life.obtain', List.mem_append, h.acquired, List.mem_singleton,
      Use.acquired.injEq]
    omega
  used n := by simp [Life.obtain', h.used]
  sock _ := Nat.succ_pos _
  released pre n post huses := by
    rcases Lts.concat_eq_append_cons.mp huses with ⟨-, -, hreleased⟩ | ⟨post', -, huses⟩
    · cases hreleased
    · apply h.released pre n post' huses
  threads _ := by
    use s.obtained, Nat.lt_succ_self _
    simp only [Life.obtain', List.mem_append, List.mem_singleton, reduceCtorEq, or_false]
    intro hreleased
    apply lt_irrefl _ (h.lt_of_released hreleased)
  destroyed hdestroyed := (hphase hdestroyed).elim

/-- The threads are joined, and the socket that the client has is closed, again perhaps. -/
theorem Recorded.join
    (h : s.Recorded) {phase : Phase} :
  Recorded { s with
    client := s.client.disconnect.1
    receiver := .none
    phase := phase
    uses := s.uses ++ s.closes }
  where
  acquired n := by
    unfold closes
    split <;> simp [h.acquired]
  used n := by
    unfold closes
    split <;> simp [h.used]
  sock := h.sock
  released pre n post huses := by
    unfold closes at huses
    split at huses
    next => apply h.released pre n post (by simpa using huses)
    next hsock =>
      rcases Lts.concat_eq_append_cons.mp huses with ⟨-, rfl, hlast⟩ | ⟨post', -, huses⟩
      · obtain rfl := Use.released.inj hlast
        apply (h.acquired _).mpr
        apply Nat.sub_one_lt_of_lt (h.sock (Int.not_lt.mp hsock))
      · apply h.released pre n post' huses
  threads hthreads := by rcases hthreads with hthreads | hthreads <;> cases hthreads
  destroyed _ hsock := by
    have hsock : ¬ s.client.sock < 0 := Int.not_lt.mpr hsock
    simp [closes, hsock]

/-- The other steps leave the sockets alone. -/
theorem Recorded.congr
    (h : s.Recorded) (hobtained : u.obtained = s.obtained) (huses : u.uses = s.uses)
    (hsock : u.client.sock = s.client.sock) (hrx : u.client.rxThread = s.client.rxThread)
    (hping : u.client.pingThread = s.client.pingThread)
    (hphase : u.phase = .destroyed → s.phase = .destroyed) :
  u.Recorded
  where
  acquired := by
    rw [huses, hobtained]
    exact h.acquired
  used := by
    rw [huses]
    exact h.used
  sock := by
    rw [hobtained, hsock]
    exact h.sock
  released := by
    rw [huses]
    exact h.released
  threads := by
    rw [hrx, hping, huses, hobtained]
    exact h.threads
  destroyed hdestroyed := by
    rw [hsock, huses, hobtained]
    exact h.destroyed (hphase hdestroyed)

theorem Recorded.step
    (h : s.Recorded) {a : Act} (hstep : s.step a = some u) :
  u.Recorded
  := by
  cases Step.of_step hstep with
  | connect hphase hconnects =>
      have hidle : Phase.idle ≠ .destroyed := nofun
      have hterminated : Phase.terminated ≠ .destroyed := nofun
      cases hconnects with
      | noSocket hsock => exact h.noSocket hsock hphase
      | refused => exact h.obtain' (hphase ▸ hidle)
      | overwritten => exact h.obtain' hterminated
      | connected => exact h.obtain' (hphase ▸ hidle)
  | stop => exact h.congr rfl rfl rfl rfl rfl nofun
  | join => exact h.join
  | loop => exact h.congr rfl rfl rfl rfl rfl id
  | @recv result =>
      cases result with
      | data | again | closed | error => exact h.congr rfl rfl rfl rfl rfl id

/-! ### In careful runs -/

/-- Every socket has been closed once or is owned, and no thread has been overwritten. -/
def Kept (s : Life) : Prop :=
  s.phase ≠ .terminated ∧ Accounted s.Owned s.uses

/-- The history accounts for the sockets when each is owned or has been closed once. -/
theorem Recorded.accounted_iff (h : s.Recorded) :
  Accounted s.Owned s.uses ↔ ∀ n < s.obtained, s.Owned n ∨ s.uses.count (.released n) = 1
  := by
  constructor
  · intro haccounted n hn
    rcases haccounted.once n ((h.acquired n).mpr hn) with ⟨howned, -⟩ | ⟨-, hcount⟩
    · left
      exact howned
    · right
      exact hcount
  · intro hall
    constructor
    · rintro n ⟨-, hlast, -⟩
      apply (h.acquired n).mpr
      omega
    · intro n hn
      apply (h.acquired n).mpr (h.lt_of_released hn)
    · intro n hn
      rcases hall n ((h.acquired n).mp hn) with howned | hcount
      · left
        exact ⟨howned, List.count_eq_zero.mpr howned.2.2⟩
      · right
        refine ⟨?_, hcount⟩
        rintro ⟨-, -, hopen⟩
        rw [List.count_eq_zero.mpr hopen] at hcount
        cases hcount
    · rintro pre n post huses hused
      apply h.used n
      rw [huses]
      simp [hused]

/-- A socket that is not owned any more, and was not closed, is lost. -/
theorem not_accounted_of_lost
    {Owned : Nat → Prop} {uses : List (Use Nat)} {n : Nat} (hacquired : .acquired n ∈ uses)
    (hreleased : .released n ∉ uses) (hlost : ¬ Owned n) :
  ¬ Accounted Owned uses
  := by
  intro h
  rcases h.once n hacquired with ⟨howned, -⟩ | ⟨-, hcount⟩
  · apply hlost howned
  · rw [List.count_eq_zero.mpr hreleased] at hcount
    cases hcount

/-- A socket that is closed twice is not accounted for. -/
theorem not_accounted_of_twice
    {Owned : Nat → Prop} {uses : List (Use Nat)} {n : Nat} (hacquired : .acquired n ∈ uses)
    (hreleased : .released n ∈ uses) :
  ¬ Accounted Owned (uses ++ [.released n])
  := by
  intro h
  have hpos := List.count_pos_iff.mpr hreleased
  have hcount : (uses ++ [Use.released n]).count (Use.released n)
      = uses.count (Use.released n) + 1 := by
    simp
  rcases h.once n (List.mem_append_left _ hacquired) with ⟨-, hzero⟩ | ⟨-, hone⟩
  · omega
  · omega

/-- A client without a socket gets one. -/
theorem Recorded.accounted_obtain'
    (h : s.Recorded) (hs : Accounted s.Owned s.uses) (hnone : ∀ n, ¬ s.Owned n)
    {client : MQTTClient} (hsock : 0 ≤ client.sock) :
  Accounted (s.obtain' client).Owned (s.obtain' client).uses
  := by
  have hnew : .acquired s.obtained ∉ s.uses := by
    rw [h.acquired]
    apply lt_irrefl
  have hopen : .released s.obtained ∉ s.uses := fun hn => lt_irrefl _ (h.lt_of_released hn)
  apply (hs.acquire hnew).congr
  intro n
  have howned : (s.obtain' client).Owned n ↔ n = s.obtained ∧ .released n ∉ s.uses := by
    simp [Owned, Life.obtain', connecting, hsock]
  rw [howned, or_iff_right (hnone n)]
  constructor
  · apply And.left
  · rintro rfl
    exact ⟨rfl, hopen⟩

/-- A `connect` keeps the sockets in order just if the client owns none. -/
theorem Recorded.connect_iff
    (h : s.Recorded) (hs : s.Kept) {sock status sent : Int}
    (hconnects : Connects s sock status sent u) :
  u.Kept ↔ ∀ n, ¬ s.Owned n
  := by
  obtain ⟨halive, haccounted⟩ := hs
  constructor
  · -- A socket that is owned is forgotten, whatever the call comes to.
    rintro ⟨-, hu⟩ n hn
    obtain ⟨-, hlast, hopen⟩ := hn
    have hacquired : .acquired n ∈ s.uses := (h.acquired n).mpr (by omega)
    have hlost : s.uses ++ [.acquired s.obtained] = u.uses ∧ u.obtained = s.obtained + 1
        ∨ s.uses = u.uses ∧ u.client.sock < 0 := by
      cases hconnects with
      | noSocket hsock => exact .inr ⟨rfl, hsock⟩
      | refused | overwritten | connected => exact .inl ⟨rfl, rfl⟩
    rcases hlost with ⟨huses, hobtained⟩ | ⟨huses, hsock⟩
    · rw [← huses] at hu
      apply not_accounted_of_lost (n := n) _ _ _ hu
      · apply List.mem_append_left _ hacquired
      · simpa using hopen
      · rintro ⟨-, heq, -⟩
        omega
    · rw [← huses] at hu
      apply not_accounted_of_lost hacquired hopen _ hu
      rintro ⟨hnonneg, -⟩
      omega
  · intro hnone
    cases hconnects with
    | noSocket hsock =>
        use halive
        apply haccounted.congr
        intro n
        apply iff_of_false _ (hnone n)
        rintro ⟨hnonneg, -⟩
        apply not_lt.mpr hnonneg hsock
    | refused hsock => exact ⟨halive, h.accounted_obtain' haccounted hnone hsock⟩
    | overwritten _ _ hthreads =>
        obtain ⟨n, hn, hopen⟩ := h.threads hthreads
        exfalso
        apply not_accounted_of_lost ((h.acquired n).mpr hn) hopen (hnone n) haccounted
    | connected hsock => exact ⟨halive, h.accounted_obtain' haccounted hnone hsock⟩

/-- The end of a `disconnect` keeps the sockets in order just if the socket is not closed. -/
theorem Recorded.join_iff
    (h : s.Recorded) (hs : s.Kept) {phase : Phase} (hphase : phase ≠ .terminated) :
  Kept { s with
      client := s.client.disconnect.1
      receiver := .none
      phase := phase
      uses := s.uses ++ s.closes }
    ↔ s.Careful .join
  := by
  obtain ⟨-, haccounted⟩ := hs
  by_cases hsock : s.client.sock < 0
  · apply iff_of_true
    · use hphase
      rw [closes, if_pos hsock, List.append_nil]
      apply haccounted.congr
      intro n
      rfl
    · intro hnonneg
      cases not_lt.mpr hnonneg hsock
  · have hnonneg := Int.not_lt.mp hsock
    have hpos := h.sock hnonneg
    have hacquired : .acquired (s.obtained - 1) ∈ s.uses := (h.acquired _).mpr (by omega)
    by_cases hclosed : .released (s.obtained - 1) ∈ s.uses
    · apply iff_of_false
      · rintro ⟨-, hu⟩
        rw [closes, if_neg hsock] at hu
        apply not_accounted_of_twice hacquired hclosed hu
      · intro hcareful
        apply hcareful hnonneg hclosed
    · have howned : s.Owned (s.obtained - 1) := ⟨hnonneg, by omega, hclosed⟩
      apply iff_of_true
      · use hphase
        rw [closes, if_neg hsock]
        apply (haccounted.release howned).congr
        intro n
        apply iff_of_false
        · rintro ⟨-, hlast, hopen⟩
          obtain rfl : n = s.obtained - 1 := by
            have : n + 1 = s.obtained := hlast
            omega
          simp at hopen
        · rintro ⟨⟨-, hlast, -⟩, hne⟩
          omega
      · intro _
        apply hclosed

theorem Recorded.kept_step_iff
    (h : s.Recorded) (hs : s.Kept) {a : Act} (hstep : s.step a = some u) :
  u.Kept ↔ s.Careful a
  := by
  cases Step.of_step hstep with
  | connect _ hconnects => exact h.connect_iff hs hconnects
  | stop => exact iff_of_true ⟨nofun, hs.2⟩ trivial
  | @join final => exact h.join_iff hs (by cases final <;> nofun)
  | loop => exact iff_of_true hs trivial
  | @recv result =>
      apply iff_of_true _ trivial
      cases result with
      | data | again | closed | error => exact hs

/-- A socket that was in order after a `connect` was so before it: the call closes nothing. -/
theorem Recorded.kept_of_connect
    (h : s.Recorded) (hphase : s.phase = .idle) {sock status sent : Int}
    (hconnects : Connects s sock status sent u) (hu : u.Recorded) (hkept : u.Kept) :
  s.Kept
  := by
  have hall := hu.accounted_iff.mp hkept.2
  use by simp [hphase]
  apply h.accounted_iff.mpr
  intro n hn
  have hnew : s.uses.count (.released n) = u.uses.count (.released n)
      ∧ n < u.obtained ∧ ¬ u.Owned n := by
    cases hconnects with
    | noSocket hsock =>
        refine ⟨rfl, hn, ?_⟩
        rintro ⟨hnonneg, -⟩
        apply not_lt.mpr hnonneg hsock
    | refused | overwritten | connected =>
        refine ⟨by simp [Life.obtain'], Nat.lt_succ_of_lt hn, ?_⟩
        rintro ⟨-, hlast, -⟩
        apply hn.ne (Nat.succ_inj.mp hlast)
  right
  rw [hnew.1]
  apply (hall n hnew.2.1).resolve_left hnew.2.2

/-- A socket other than the last is not closed at the end of a `disconnect`. -/
theorem count_released_closes
    {n : Nat} (hn : s.client.sock < 0 ∨ n + 1 ≠ s.obtained) (hlt : n < s.obtained) :
  (s.uses ++ s.closes).count (.released n) = s.uses.count (.released n)
  := by
  unfold closes
  split
  next => rw [List.append_nil]
  next hsock =>
    have hne := hn.resolve_left hsock
    have hother : [Use.released (s.obtained - 1)].count (.released n) = 0 := by
      apply List.count_eq_zero.mpr
      simp only [List.mem_singleton, Use.released.injEq]
      omega
    rw [List.count_append, hother, Nat.add_zero]

/-- A socket that is in order after the end of a `disconnect` was so before it. -/
theorem Recorded.kept_of_join
    (h : s.Recorded) (hphase : s.phase ≠ .terminated) {phase : Phase}
    (hkept : Kept { s with
      client := s.client.disconnect.1
      receiver := .none
      phase := phase
      uses := s.uses ++ s.closes }) :
  s.Kept
  := by
  have hall := h.join.accounted_iff.mp hkept.2
  use hphase
  apply h.accounted_iff.mpr
  intro n hn
  by_cases hlast : s.client.sock < 0 ∨ n + 1 ≠ s.obtained
  · right
    rw [← count_released_closes hlast hn]
    apply (hall n hn).resolve_left
    rintro ⟨hnonneg, heq, -⟩
    rcases hlast with hsock | hne
    · apply not_lt.mpr hnonneg hsock
    · apply hne heq
  · -- It was closed in this step, so it was open before.
    rw [not_or, not_not] at hlast
    obtain ⟨hsock, hlast⟩ := hlast
    left
    use Int.not_lt.mp hsock, hlast
    intro hclosed
    have hpos := List.count_pos_iff.mpr hclosed
    obtain rfl : n = s.obtained - 1 := by omega
    have hn' := hall _ hn
    dsimp only [Owned] at hn'
    rw [closes, if_neg hsock, List.count_append] at hn'
    rcases hn' with ⟨-, -, hopen⟩ | hcount
    · simp at hopen
    · rw [List.count_singleton_self] at hcount
      omega

/-- What is lost, or closed twice, stays so. -/
theorem Recorded.kept_of_step
    (h : s.Recorded) {a : Act} (hstep : s.step a = some u) (hu : u.Kept) :
  s.Kept
  := by
  have hrecorded := h.step hstep
  cases Step.of_step hstep with
  | connect hphase hconnects => exact h.kept_of_connect hphase hconnects hrecorded hu
  | stop hphase =>
      use by simp [hphase]
      exact hu.2
  | join hphase => exact h.kept_of_join (by simp [hphase]) hu
  | loop _ halive => exact ⟨halive, hu.2⟩
  | @recv result _ halive =>
      use halive
      cases result with
      | data | again | closed | error => exact hu.2

theorem Kept.init (clientId : Bytes) :
  (Life.init clientId).Kept
  := by
  use nofun
  apply Accounted.nil
  rintro n ⟨hsock, -⟩
  cases hsock

theorem Recorded.not_owned_of_destroyed
    (h : s.Recorded) (hdestroyed : s.phase = .destroyed) (n : Nat) :
  ¬ s.Owned n
  := by
  rintro ⟨hsock, hlast, hopen⟩
  obtain rfl : n = s.obtained - 1 := by omega
  apply hopen (h.destroyed hdestroyed hsock)

/-- At the end of a life the sockets are in order just if each was closed once. -/
theorem Recorded.kept_iff_clean
    (h : s.Recorded) (hend : s.phase = .destroyed ∨ s.phase = .terminated) :
  s.Kept ↔ s.Clean
  := by
  constructor
  · rintro ⟨halive, haccounted⟩
    have hnone := h.not_owned_of_destroyed (hend.resolve_right halive)
    have honce : ∀ n < s.obtained, s.uses.count (.released n) = 1 := by
      intro n hn
      rcases haccounted.once n ((h.acquired n).mpr hn) with ⟨howned, -⟩ | ⟨-, hcount⟩
      · cases hnone n howned
      · apply hcount
    refine ⟨honce, ?_, halive⟩
    intro pre n post huses
    use h.released pre n post huses
    intro hreleased
    have hpos := List.count_pos_iff.mpr hreleased
    have hcount : s.uses.count (.released n) = 1 := by
      apply honce n (h.lt_of_released _)
      rw [huses]
      apply List.mem_append_left _ hreleased
    rw [huses, List.count_append, List.count_cons_self] at hcount
    omega
  · intro hclean
    use hclean.alive
    apply h.accounted_iff.mpr
    intro n hn
    right
    apply hclean.once n hn

/-- At the end of a run every socket has been closed once, nothing else has been closed and no
thread has been overwritten, just if every step was careful. -/
theorem clean_iff_careful
    {clientId : Bytes} {as : List Act} (h : Lts.run step (Life.init clientId) as = some s)
    (hend : s.phase = .destroyed ∨ s.phase = .terminated) :
  s.Clean ↔ Lts.Guarded step Careful (Life.init clientId) as
  := by
  have hrecorded : s.Recorded :=
    Lts.run_induction (P := fun _ s => s.Recorded) (Recorded.init clientId)
      (fun _ _ _ _ _ ht hstep => ht.step hstep) h
  rw [← hrecorded.kept_iff_clean hend]
  apply Lts.run_iff_guarded (I := Recorded) (Recorded.init clientId) (Kept.init clientId) _ _ h
  · intro t a u ht hstep
    apply ht.step hstep
  · intro t a u ht hstep
    constructor
    · intro hu
      have hkept := ht.kept_of_step hstep hu
      exact ⟨hkept, (ht.kept_step_iff hkept hstep).mp hu⟩
    · rintro ⟨hkept, hcareful⟩
      apply (ht.kept_step_iff hkept hstep).mpr hcareful

/-- A client that is connected, loses the connection and is destroyed. -/
def orderlyActs : List Act :=
  [.connect 3 0 14, .loop, .recv .closed, .stop true, .join]

theorem clean_iff_careful_orderlyActs :
  ∃ s, Lts.run step (Life.init []) orderlyActs = some s
    ∧ (s.Clean ↔ Lts.Guarded step Careful (Life.init []) orderlyActs)
  := ⟨_, rfl, clean_iff_careful rfl (.inl rfl)⟩

/-- A `disconnect` closes the socket, and the destructor closes it again. -/
theorem not_clean_of_disconnect :
  ∃ s, Lts.run step (Life.init [])
      [.connect 3 0 14, .loop, .stop false, .recv .again, .loop, .join, .stop true, .join] = some s
    ∧ s.phase = .destroyed ∧ s.uses.count (.released 0) = 2 ∧ ¬ s.Clean
  := by
  refine ⟨_, rfl, rfl, rfl, ?_⟩
  intro hclean
  cases hclean.once 0 (by decide)

end

end Life

end MQTTClient

end NexusMainframe
