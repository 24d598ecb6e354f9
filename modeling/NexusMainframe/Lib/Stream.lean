import NexusMainframe.Lib.Bytes

/-!
# Byte streams

A stream socket delivers the bytes sent to it in order, cut into chunks that have nothing
to do with the calls that sent them. `Stream.Cutting limit bs chunks` says that the chunks
are such a cutting of `bs`, none of them empty or longer than `limit`. `Stream.Socket` is
the receiving end of a stream that ends, with the chunks that are still to come.
-/

namespace Stream

/-- The chunks make up `bs`, each of them from one byte to `limit` bytes long. -/
structure Cutting (limit : Nat) (bs : Bytes) (chunks : List Bytes) : Prop where
  flatten : chunks.flatten = bs
  nonempty : ∀ c ∈ chunks, c ≠ []
  bounded : ∀ c ∈ chunks, c.length ≤ limit

namespace Cutting

variable {limit : Nat}

theorem singleton
    {c : Bytes} (hne : c ≠ []) (hle : c.length ≤ limit) :
  Cutting limit c [c]
  := by
  constructor <;> simp [hne, hle]

theorem append
    {bs bs' : Bytes} {cs cs' : List Bytes} (h : Cutting limit bs cs)
    (h' : Cutting limit bs' cs') :
  Cutting limit (bs ++ bs') (cs ++ cs')
  := by
  constructor
  · rw [List.flatten_append, h.flatten, h'.flatten]
  · intro c hc
    rcases List.mem_append.mp hc with hc | hc
    · apply h.nonempty c hc
    · apply h'.nonempty c hc
  · intro c hc
    rcases List.mem_append.mp hc with hc | hc
    · apply h.bounded c hc
    · apply h'.bounded c hc

/-- The bytes of a stream one at a time. -/
theorem bytewise (hlimit : 0 < limit) (bs : Bytes) :
  Cutting limit bs (bs.map fun b => [b])
  := by
  constructor
  · induction bs with
    | nil => rfl
    | cons b bs ih => simp [ih]
  · simp
  · simp
    omega

/-- A chunk of a cutting is a stretch of the stream. -/
theorem infix_of_mem
    {bs c : Bytes} {cs : List Bytes} (h : Cutting limit bs cs) (hc : c ∈ cs) :
  c <:+: bs
  := by
  rw [← h.flatten]
  apply List.infix_of_mem_flatten hc

end Cutting

/-! ### Receiving -/

/-- The chunks that a socket will deliver before the end of its stream. -/
structure Socket where
  chunks : List Bytes
  nonempty : ∀ c ∈ chunks, c ≠ []

namespace Socket

/-- The bytes that a socket will deliver. -/
def bytes (s : Socket) : Bytes :=
  s.chunks.flatten

/-- The number of bytes that one call of `recv` moves at most. -/
def maxCount : Nat :=
  0x7ffff000

/-- A call of `recv` for at most `n` bytes: what is there of the first chunk, or nothing
at the end of the stream. -/
def recv (s : Socket) (n : Nat) : Bytes × Socket :=
  match s with
  | ⟨[], h⟩ => ([], ⟨[], h⟩)
  | ⟨c :: cs, h⟩ =>
      if hk : min n maxCount < c.length then
        (c.take (min n maxCount),
          ⟨c.drop (min n maxCount) :: cs, by
            intro d hd
            rcases List.mem_cons.mp hd with rfl | hd
            · rw [← List.length_pos_iff, List.length_drop]
              omega
            · apply h d (List.mem_cons_of_mem c hd)⟩)
      else (c, ⟨cs, fun d hd => h d (List.mem_cons_of_mem c hd)⟩)

/-- `recv` takes its bytes off the front of the stream. -/
theorem recv_append (s : Socket) (n : Nat) :
  (s.recv n).1 ++ (s.recv n).2.bytes = s.bytes
  := by
  obtain ⟨_ | ⟨c, cs⟩, h⟩ := s
  · rfl
  · unfold recv
    dsimp only
    split
    · simp [bytes, ← List.append_assoc]
    · simp [bytes]

theorem recv_length_le (s : Socket) (n : Nat) :
  (s.recv n).1.length ≤ min n maxCount
  := by
  obtain ⟨_ | ⟨c, cs⟩, h⟩ := s
  · simp [recv]
  · unfold recv
    dsimp only
    split
    · rw [List.length_take]
      omega
    · dsimp only
      omega

/-- `recv` returns nothing when it is asked for nothing or the stream has ended. -/
theorem recv_eq_nil {s : Socket} {n : Nat} :
  (s.recv n).1 = [] ↔ n = 0 ∨ s.bytes = []
  := by
  obtain ⟨_ | ⟨c, cs⟩, h⟩ := s
  · simp [recv, bytes]
  · have hc := h c (by simp)
    have hmax : maxCount ≠ 0 := by decide
    unfold recv
    dsimp only
    split
    · simp [bytes, hc]
      omega
    · have := List.length_pos_iff.mpr hc
      simp [bytes, hc]
      omega

/-- The socket that delivers a stream byte by byte. -/
def bytewise (bs : Bytes) : Socket where
  chunks := bs.map fun b => [b]
  nonempty := (Cutting.bytewise (by decide : 0 < 1) bs).nonempty

@[simp]
theorem bytes_bytewise (bs : Bytes) :
  (bytewise bs).bytes = bs
  := (Cutting.bytewise (by decide : 0 < 1) bs).flatten

end Socket

/-! ### Reading fields -/

/-- A reader takes a field off the front of a stream, to the value `a`, and fails on a
stream that ends within the field. -/
structure Takes {α : Type} (read : Socket → Option (α × Socket)) (field : Bytes) (a : α) :
    Prop where
  whole : ∀ s rest, s.bytes = field ++ rest → ∃ t, read s = some (a, t) ∧ t.bytes = rest
  short : ∀ s, s.bytes <+: field → s.bytes ≠ field → read s = none

namespace Takes

variable {α β : Type}

/-- Taking nothing. -/
theorem pure (a : α) :
  Takes (fun s => some (a, s)) [] a
  := by
  constructor
  · intro s rest h
    use s, rfl
    apply h
  · intro s hs hne
    exact (hne (List.prefix_nil.mp hs)).elim

/-- Two fields are taken one after the other. -/
theorem bind
    {read : Socket → Option (α × Socket)} {field field' : Bytes} {a : α} {b : β}
    (h : Takes read field a) (next : α → Socket → Option (β × Socket))
    (h' : Takes (next a) field' b) :
  Takes (fun s => (read s).bind fun p => next p.1 p.2) (field ++ field') b
  := by
  constructor
  · intro s rest hs
    rw [List.append_assoc] at hs
    obtain ⟨t, ht, hrest⟩ := h.whole s _ hs
    rw [ht, Option.bind_some]
    apply h'.whole t rest hrest
  · intro s hs hne
    by_cases hpre : field <+: s.bytes
    · obtain ⟨rest, hrest⟩ := hpre
      obtain ⟨t, ht, rfl⟩ := h.whole s rest hrest.symm
      rw [← hrest] at hs hne
      rw [ht, Option.bind_some]
      apply h'.short t ((List.prefix_append_right_inj field).mp hs)
      rintro rfl
      apply hne rfl
    · have hfield := List.prefix_or_prefix_of_prefix hs (List.prefix_append field field')
      rw [h.short s (hfield.resolve_right hpre), Option.bind_none]
      rintro rfl
      apply hpre (List.prefix_refl s.bytes)

/-- A field taken and its value changed by a function. -/
theorem map
    {read : Socket → Option (α × Socket)} {field : Bytes} {a : α} (h : Takes read field a)
    (f : α → β) :
  Takes (fun s => (read s).map fun p => (f p.1, p.2)) field (f a)
  := by
  constructor
  · intro s rest hs
    obtain ⟨t, ht, hrest⟩ := h.whole s rest hs
    use t
    rw [ht]
    use rfl, hrest
  · intro s hs hne
    rw [h.short s hs hne, Option.map_none]

end Takes

/-! ### Filling a buffer -/

section Fill

variable (recv : Socket → Nat → Bytes × Socket)

/-- Fills a buffer of `n` bytes by successive calls of `recv`, each for the number of bytes
that are missing, or fails when one of them returns nothing. -/
def fill (s : Socket) (n : Nat) : Option (Bytes × Socket) :=
  if n = 0 then some ([], s)
  else if (recv s n).1 = [] then none
  else
    (fill (recv s n).2 (n - (recv s n).1.length)).map fun p => ((recv s n).1 ++ p.1, p.2)
termination_by n
decreasing_by
  have := List.length_pos_iff.mpr ‹¬ (recv s n).1 = []›
  omega

/-- A call for some of the missing bytes takes them off the front of the stream, not more
than are missing; when fewer than `bound` are missing it returns nothing only at the end of
the stream. -/
structure Receives (bound : Nat) : Prop where
  append : ∀ s n, (recv s n).1 ++ (recv s n).2.bytes = s.bytes
  length_le : ∀ s n, (recv s n).1.length ≤ n
  progress : ∀ s n, 0 < n → n < bound → (recv s n).1 = [] → s.bytes = []

variable {recv} {bound : Nat} (h : Receives recv bound)

include h

theorem Receives.fill_length
    {s t : Socket} {n : Nat} {bs : Bytes} (hfill : fill recv s n = some (bs, t)) :
  bs.length = n ∧ bs ++ t.bytes = s.bytes
  := by
  induction n using Nat.strong_induction_on generalizing s bs with
  | h n ih =>
      rw [fill] at hfill
      split at hfill
      next hn =>
        obtain ⟨rfl, rfl⟩ := Prod.mk.inj (Option.some.inj hfill)
        use hn.symm
        rfl
      next hn =>
        split at hfill
        next => cases hfill
        next hne =>
          obtain ⟨⟨cs, u⟩, hrec, heq⟩ := Option.map_eq_some_iff.mp hfill
          obtain ⟨rfl, rfl⟩ := Prod.mk.inj heq
          have hpos := List.length_pos_iff.mpr hne
          have hle := h.length_le s n
          obtain ⟨hlen, hbytes⟩ := ih _ (by omega) hrec
          constructor
          · rw [List.length_append, hlen]
            omega
          · rw [List.append_assoc, hbytes, h.append]

/-- A buffer below the bound is filled when the stream has the bytes. -/
theorem Receives.fill_of_le
    {s : Socket} {n : Nat} (hn : n < bound) (hle : n ≤ s.bytes.length) :
  ∃ bs t, fill recv s n = some (bs, t)
  := by
  induction n using Nat.strong_induction_on generalizing s with
  | h n ih =>
      rw [fill]
      split
      next => use [], s
      next hn0 =>
        have hne : ¬ (recv s n).1 = [] := by
          intro hnil
          rw [h.progress s n (Nat.pos_of_ne_zero hn0) hn hnil] at hle
          apply hn0 (Nat.le_zero.mp hle)
        have hpos := List.length_pos_iff.mpr hne
        have hlen := congrArg List.length (h.append s n)
        rw [List.length_append] at hlen
        obtain ⟨bs, t, hrec⟩ := ih (n - (recv s n).1.length) (by omega) (s := (recv s n).2)
          (by omega) (by omega)
        use (recv s n).1 ++ bs, t
        simp only [hne, if_false, hrec, Option.map_some]

/-- Filling a buffer takes a field shorter than the bound. -/
theorem Receives.takes_fill
    (field : Bytes) (hlt : field.length < bound) :
  Takes (fun s => fill recv s field.length) field field
  := by
  constructor
  · intro s rest hs
    obtain ⟨bs, t, ht⟩ := h.fill_of_le (s := s) hlt (by rw [hs]; simp)
    obtain ⟨hlen, hbytes⟩ := h.fill_length ht
    obtain ⟨rfl, hrest⟩ := List.append_inj (hbytes.trans hs) hlen
    use t, ht, hrest
  · intro s hs hne
    cases hread : fill recv s field.length with
    | none => rfl
    | some p =>
        obtain ⟨hlen, hbytes⟩ := h.fill_length hread
        have hle := congrArg List.length hbytes
        rw [List.length_append] at hle
        exact (hne (hs.eq_of_length_le (by omega))).elim

end Fill

end Stream
