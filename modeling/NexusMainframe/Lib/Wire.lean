import Mathlib.Data.List.Nodup

/-!
# Packets on a connection

Senders put packets on a connection, each call as many bytes from the front of its packet as the
connection takes. `Wire.wire` is what is there afterwards, every byte with the call that it is
of, and `Wire.Framed` says that it is the beginning of whole packets one behind the other. That
is so just if nothing is put there behind a part of a packet.
-/

namespace Wire

variable {α β : Type*} (packet : α → List β)

/-- The packet of a call, every byte with the call. -/
def marked (c : α) : List (α × β) :=
  (packet c).map fun b => (c, b)

/-- What is on the connection after calls that have put so many bytes there. -/
def wire (puts : List (α × Nat)) : List (α × β) :=
  puts.flatMap fun p => (marked packet p.1).take p.2

/-- The beginning of whole packets. -/
def Framed (w : List (α × β)) : Prop :=
  ∃ cs : List α, w <+: cs.flatMap (marked packet)

/-- Behind a part of a packet nothing is put on the connection. -/
def EndsShort (puts : List (α × Nat)) : Prop :=
  puts.Pairwise fun p q => 0 < p.2 → p.2 < (packet p.1).length → q.2 = 0

variable {packet} {c : α} {w : List (α × β)} {puts : List (α × Nat)}

theorem length_marked (packet : α → List β) (c : α) :
  (marked packet c).length = (packet c).length
  := List.length_map _

theorem fst_of_mem_marked {x : α × β} (h : x ∈ marked packet c) :
  x.1 = c
  := by
  obtain ⟨b, -, rfl⟩ := List.mem_map.mp h
  rfl

theorem framed_nil (packet : α → List β) :
  Framed packet []
  := ⟨[], List.nil_prefix⟩

/-- The packet of the first byte stands at the front. -/
theorem exists_prefix_of_head
    {cs : List α} (h : w <+: cs.flatMap (marked packet)) {x : α × β} (hx : w.head? = some x) :
  ∃ cs' : List α, w <+: marked packet x.1 ++ cs'.flatMap (marked packet)
  := by
  induction cs with
  | nil =>
      rw [List.prefix_nil.mp h] at hx
      cases hx
  | cons d cs ih =>
      rw [List.flatMap_cons] at h
      cases hd : marked packet d with
      | nil =>
          rw [hd] at h
          apply ih h
      | cons y ys =>
          use cs
          have hxd : x.1 = d := by
            obtain ⟨w', rfl⟩ := List.head?_eq_some_iff.mp hx
            rw [hd, List.cons_append] at h
            rw [(List.cons_prefix_cons.mp h).1]
            have hy : y ∈ marked packet d := by
              rw [hd]
              apply List.mem_cons_self
            apply fst_of_mem_marked hy
          rw [hxd]
          exact h

theorem head?_take_marked_append
    {n : Nat} (hpos : 0 < n) (hne : packet c ≠ []) :
  ∃ b, ((marked packet c).take n ++ w).head? = some (c, b)
  := by
  obtain ⟨b, bs, hb⟩ := List.exists_cons_of_ne_nil hne
  obtain ⟨m, rfl⟩ := Nat.exists_eq_add_one_of_ne_zero (Nat.ne_of_gt hpos)
  use b
  rw [marked, hb]
  rfl

/-- Behind a whole packet stands the beginning of whole packets again. -/
theorem framed_marked_append :
  Framed packet (marked packet c ++ w) ↔ Framed packet w
  := by
  constructor
  · rintro ⟨cs, h⟩
    by_cases hne : packet c = []
    · use cs
      rwa [marked, hne] at h
    · have hlen := List.length_pos_iff.mpr hne
      have htake : (marked packet c).take (packet c).length = marked packet c := by
        rw [← length_marked, List.take_length]
      obtain ⟨b, hb⟩ := head?_take_marked_append (w := w) hlen hne
      rw [htake] at hb
      obtain ⟨cs', hcs'⟩ := exists_prefix_of_head h hb
      use cs'
      exact (List.prefix_append_right_inj _).mp hcs'
  · rintro ⟨cs, h⟩
    use c :: cs
    rw [List.flatMap_cons]
    apply (List.prefix_append_right_inj _).mpr h

/-- Behind a part of a packet stands nothing of another. -/
theorem framed_take_append
    {n : Nat} (hpos : 0 < n) (hlt : n < (packet c).length) (hw : ∀ x ∈ w, x.1 ≠ c) :
  Framed packet ((marked packet c).take n ++ w) ↔ w = []
  := by
  constructor
  · rintro ⟨cs, h⟩
    have hne : packet c ≠ [] := List.ne_nil_of_length_pos (Nat.lt_trans hpos hlt)
    obtain ⟨b, hb⟩ := head?_take_marked_append (w := w) hpos hne
    obtain ⟨cs', hcs'⟩ := exists_prefix_of_head h hb
    -- The next byte would be of the same packet.
    have hsplit : marked packet c ++ cs'.flatMap (marked packet)
        = (marked packet c).take n
          ++ ((marked packet c).drop n ++ cs'.flatMap (marked packet)) := by
      rw [← List.append_assoc, List.take_append_drop]
    rw [hsplit, List.prefix_append_right_inj] at hcs'
    cases w with
    | nil => rfl
    | cons x w =>
        have hdrop : (marked packet c).drop n ≠ [] := by
          rw [Ne, List.drop_eq_nil_iff, length_marked]
          exact Nat.not_le.mpr hlt
        obtain ⟨y, ys, hy⟩ := List.exists_cons_of_ne_nil hdrop
        rw [hy, List.cons_append] at hcs'
        have hx : x = y := (List.cons_prefix_cons.mp hcs').1
        have hmem : y ∈ marked packet c := List.mem_of_mem_drop (hy ▸ List.mem_cons_self)
        exfalso
        apply hw x List.mem_cons_self
        rw [hx]
        apply fst_of_mem_marked hmem
  · rintro rfl
    use [c]
    rw [List.append_nil, List.flatMap_singleton]
    apply List.take_prefix

theorem mem_of_mem_wire {x : α × β} (h : x ∈ wire packet puts) :
  x.1 ∈ puts.map Prod.fst
  := by
  obtain ⟨p, hp, hx⟩ := List.mem_flatMap.mp h
  rw [fst_of_mem_marked (List.mem_of_mem_take hx)]
  apply List.mem_map_of_mem hp

theorem wire_eq_nil_iff (hle : ∀ p ∈ puts, p.2 ≤ (packet p.1).length) :
  wire packet puts = [] ↔ ∀ p ∈ puts, p.2 = 0
  := by
  rw [wire, List.flatMap_eq_nil_iff]
  apply forall₂_congr
  intro p hp
  rw [← List.length_eq_zero_iff, List.length_take, length_marked, Nat.min_eq_left (hle p hp)]

/-- The connection has the beginning of whole packets just if nothing is put behind a part of
one. -/
theorem framed_wire_iff
    (hnodup : (puts.map Prod.fst).Nodup) (hle : ∀ p ∈ puts, p.2 ≤ (packet p.1).length) :
  Framed packet (wire packet puts) ↔ EndsShort packet puts
  := by
  induction puts with
  | nil => exact iff_of_true (framed_nil packet) List.Pairwise.nil
  | cons p puts ih =>
      obtain ⟨hp, hnodup⟩ := List.nodup_cons.mp hnodup
      obtain ⟨hlen, hle⟩ := List.forall_mem_cons.mp hle
      have hwire : wire packet (p :: puts)
          = (marked packet p.1).take p.2 ++ wire packet puts := List.flatMap_cons
      rw [hwire, EndsShort, List.pairwise_cons, ← EndsShort, ← ih hnodup hle]
      by_cases hzero : p.2 = 0
      · rw [hzero, List.take_zero, List.nil_append]
        simp
      · by_cases hwhole : p.2 = (packet p.1).length
        · rw [hwhole, ← length_marked, List.take_length, framed_marked_append]
          simp [length_marked]
        · have hpos := Nat.pos_of_ne_zero hzero
          have hlt := Nat.lt_of_le_of_ne hlen hwhole
          rw [framed_take_append hpos hlt (fun x hx heq => hp (heq ▸ mem_of_mem_wire hx)),
            wire_eq_nil_iff hle]
          constructor
          · intro hall
            use fun q hq _ _ => hall q hq
            rw [(wire_eq_nil_iff hle).mpr hall]
            apply framed_nil
          · rintro ⟨hall, -⟩ q hq
            apply hall q hq hpos hlt

/-! ### Counts of `send` -/

variable (packet) in
/-- A call that sends its packet in one piece, with the count that `send` returns: how many bytes
it has put on the connection, or a negative number. -/
structure Send where
  call : α
  count : Int
  count_le : count ≤ (packet call).length

namespace Send

/-- A part of the packet was put on the connection. -/
def Short (s : Send packet) : Prop :=
  0 < s.count ∧ s.count < (packet s.call).length

/-- The calls in the order in which they send, numbered, with what they put on the
connection. -/
def numbered (ss : List (Send packet)) : List ((Nat × α) × Nat) :=
  ss.zipIdx.map fun p => ((p.2, p.1.call), p.1.count.toNat)

/-- The packet of a numbered call. -/
def packetOf (packet : α → List β) (c : Nat × α) : List β :=
  packet c.2

/-- At all times the connection has the beginning of whole packets. -/
def Unmixed (ss : List (Send packet)) : Prop :=
  ∀ pre, pre <+: ss → Framed (packetOf packet) (wire (packetOf packet) (numbered pre))

/-- Behind a call that has put a part of its packet on the connection, none puts anything
there. -/
def StopsShort (ss : List (Send packet)) : Prop :=
  ss.Pairwise fun s t => s.Short → t.count ≤ 0

theorem framed_numbered_iff (ss : List (Send packet)) :
  Framed (packetOf packet) (wire (packetOf packet) (numbered ss)) ↔ StopsShort ss
  := by
  have hnodup : ((numbered ss).map Prod.fst).Nodup := by
    apply List.Nodup.of_map Prod.fst
    have hrange : ((numbered ss).map Prod.fst).map Prod.fst = List.range' 0 ss.length := by
      rw [numbered, List.map_map, List.map_map, ← List.zipIdx_map_snd 0 ss]
      rfl
    rw [hrange]
    exact List.nodup_range'
  have hle : ∀ p ∈ numbered ss, p.2 ≤ (packetOf packet p.1).length := by
    intro p hp
    obtain ⟨⟨s, i⟩, -, rfl⟩ := List.mem_map.mp hp
    have := s.count_le
    dsimp only [packetOf]
    omega
  have hshort : EndsShort (packetOf packet) (numbered ss)
      ↔ ss.zipIdx.Pairwise fun p q => p.1.Short → q.1.count ≤ 0 := by
    rw [EndsShort, numbered, List.pairwise_map]
    apply List.Pairwise.iff
    intro p q
    dsimp only [packetOf, Short]
    omega
  rw [framed_wire_iff hnodup hle, hshort, StopsShort]
  conv_rhs => rw [← List.zipIdx_map_fst 0 ss, List.pairwise_map]

/-- The connection has the beginning of whole packets at all times just if nothing follows a part
of a packet. -/
theorem unmixed_iff_stopsShort (ss : List (Send packet)) :
  Unmixed ss ↔ StopsShort ss
  := by
  constructor
  · intro h
    apply (framed_numbered_iff ss).mp
    apply h ss List.prefix_rfl
  · intro h pre hpre
    apply (framed_numbered_iff pre).mpr
    apply h.sublist hpre.sublist

/-- The bytes that the calls have put on the connection. -/
def bytes (ss : List (Send packet)) : List β :=
  ss.flatMap fun s => (packet s.call).take s.count.toNat

end Send

end Wire
