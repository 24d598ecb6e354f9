import NexusMainframe.Lib.Json
import Mathlib.Data.List.DropRight

/-!
# The log broadcaster

The log broadcaster keeps the last 500 log entries and sends each new one to the clients
of a WebSocket server as a JSON text. The serialiser is a parameter: `dump j` is the text
of a value, or nothing where `json::dump` throws. `DumpSpec` is what is assumed of it.

An entry is serialised before it is buffered, so one whose strings are not all valid UTF-8
is neither buffered nor sent, and the exception escapes from `log`.
-/

namespace NexusMainframe

/-- An entry as clients get it. -/
structure LogEntry where
  level : Bytes
  source : Bytes
  message : Bytes
  timestamp : Bytes
deriving DecidableEq

/-- The time as `gmtime` breaks it down, with the milliseconds. -/
structure LogTime where
  year : Nat
  month : Nat
  day : Nat
  hour : Nat
  minute : Nat
  second : Nat
  millis : Nat

/-- The ring buffer of a `LogBroadcaster`. -/
structure LogBroadcaster where
  buffer : List LogEntry
  bounded : buffer.length ≤ 500

namespace LogBroadcaster

/-- What is assumed of `json::dump`, with its default error handler, on objects of
strings: it throws just on strings that are not valid UTF-8, and what it returns is a JSON
text. -/
structure DumpSpec (dump : Json → Option Bytes) : Prop where
  throws : ∀ members, dump (Json.ofStrings members) = none
    ↔ ∃ m ∈ members, ¬ Utf8.Valid m.1 ∨ ¬ Utf8.Valid m.2
  text : ∀ members text, dump (Json.ofStrings members) = some text → Json.IsText text

/-! ### The functions -/

/-- `BUFFER_MAX`. -/
def bufferMax : Nat :=
  500

/-- `nowIso`: the time in UTC to the millisecond. -/
def nowIso (now : LogTime) : Bytes :=
  Bytes.decimal now.year ++ Bytes.ofAscii "-" ++ Bytes.padded 2 now.month ++ Bytes.ofAscii "-"
    ++ Bytes.padded 2 now.day ++ Bytes.ofAscii "T" ++ Bytes.padded 2 now.hour
    ++ Bytes.ofAscii ":" ++ Bytes.padded 2 now.minute ++ Bytes.ofAscii ":"
    ++ Bytes.padded 2 now.second ++ Bytes.ofAscii "." ++ Bytes.padded 3 now.millis
    ++ Bytes.ofAscii "Z"

/-- The object of an entry; its members are kept in the order of their keys. -/
def entryToJson (dump : Json → Option Bytes) (entry : LogEntry) : Option Bytes :=
  dump (Json.ofStrings
    [(Bytes.ofAscii "level", entry.level), (Bytes.ofAscii "message", entry.message),
      (Bytes.ofAscii "source", entry.source), (Bytes.ofAscii "timestamp", entry.timestamp)])

/-- The buffer with one more entry, the oldest dropped when it is full. -/
def push (b : LogBroadcaster) (entry : LogEntry) : LogBroadcaster where
  buffer := (if b.buffer.length ≥ bufferMax then b.buffer.drop 1 else b.buffer) ++ [entry]
  bounded := by
    have := b.bounded
    rw [List.length_append, List.length_singleton, bufferMax]
    split
    · rw [List.length_drop]
      omega
    · omega

/-- `log`, with the frames it hands to `broadcast`, unless the serialiser throws. -/
def log (dump : Json → Option Bytes) (now : LogTime) (b : LogBroadcaster)
    (level source message : Bytes) : Option (LogBroadcaster × List Bytes) :=
  let entry : LogEntry := ⟨level, source, message, nowIso now⟩
  (entryToJson dump entry).map fun frame => (b.push entry, [frame])

/-- `WebLogger::emit`. -/
def emit (dump : Json → Option Bytes) (now : LogTime) (b : LogBroadcaster)
    (level source message : Bytes) : Option (LogBroadcaster × List Bytes) :=
  b.log dump now level source message

/-- The access logger of `HttpServer`, on the method and path of a request and the status
of its response. -/
def accessLog (dump : Json → Option Bytes) (now : LogTime) (b : LogBroadcaster)
    (method path : Bytes) (status : Nat) : Option (LogBroadcaster × List Bytes) :=
  let msg := method ++ Bytes.ofAscii " " ++ path ++ Bytes.ofAscii " -> " ++ Bytes.decimal status
  if status ≥ 500 then b.emit dump now (Bytes.ofAscii "error") (Bytes.ofAscii "HttpServer") msg
  else if status ≥ 400 then
    b.emit dump now (Bytes.ofAscii "warn") (Bytes.ofAscii "HttpServer") msg
  else b.emit dump now (Bytes.ofAscii "info") (Bytes.ofAscii "HttpServer") msg

/-! ### Entries that are logged -/

theorem valid_nowIso (now : LogTime) :
  Utf8.Valid (nowIso now)
  := by
  apply Utf8.valid_of_ascii
  simp only [nowIso, List.forall_mem_append]
  and_intros
  all_goals first
    | apply Bytes.decimal_lt
    | apply Bytes.padded_lt
    | apply Bytes.ofAscii_lt; decide

/-- An entry is serialised just if its level, source and message are valid UTF-8. -/
theorem entryToJson_eq_none
    {dump : Json → Option Bytes} (h : DumpSpec dump) (now : LogTime)
    (level source message : Bytes) :
  entryToJson dump ⟨level, source, message, nowIso now⟩ = none
    ↔ ¬ (Utf8.Valid level ∧ Utf8.Valid source ∧ Utf8.Valid message)
  := by
  have hlevel : Utf8.Valid (Bytes.ofAscii "level") :=
    Utf8.valid_of_ascii (Bytes.ofAscii_lt (by decide))
  have hmessage : Utf8.Valid (Bytes.ofAscii "message") :=
    Utf8.valid_of_ascii (Bytes.ofAscii_lt (by decide))
  have hsource : Utf8.Valid (Bytes.ofAscii "source") :=
    Utf8.valid_of_ascii (Bytes.ofAscii_lt (by decide))
  have htimestamp : Utf8.Valid (Bytes.ofAscii "timestamp") :=
    Utf8.valid_of_ascii (Bytes.ofAscii_lt (by decide))
  rw [entryToJson, h.throws]
  simp only [List.mem_cons, List.not_mem_nil, or_false, exists_eq_or_imp, exists_eq_left, hlevel,
    hmessage, hsource, htimestamp, valid_nowIso, not_true_eq_false, false_or, not_and_or]
  tauto

theorem buffer_push (b : LogBroadcaster) (entry : LogEntry) :
  (b.push entry).buffer = (b.buffer ++ [entry]).rtake bufferMax
  := by
  have hbounded := b.bounded
  have hmax : bufferMax = 499 + 1 := rfl
  have hrtake : (b.buffer ++ [entry]).rtake bufferMax = b.buffer.rtake 499 ++ [entry] :=
    List.rtake_concat_succ b.buffer 499 entry
  rw [hrtake, List.rtake, push]
  by_cases hfull : b.buffer.length ≥ bufferMax
  · have hfull' : b.buffer.length - 499 = 1 := by omega
    simp only [hfull, if_true, hfull']
  · have hroom : b.buffer.length - 499 = 0 := by omega
    simp only [hfull, if_false, hroom, List.drop_zero]

/-- A call of `log` that returns, with the entry behind the last 499 of the buffer and one
JSON text handed to `broadcast`. -/
def Logged (b : LogBroadcaster) (level source message : Bytes)
    (result : Option (LogBroadcaster × List Bytes)) : Prop :=
  ∃ (timestamp frame : Bytes) (t : LogBroadcaster), result = some (t, [frame])
    ∧ Json.IsText frame
    ∧ t.buffer = (b.buffer ++ [LogEntry.mk level source message timestamp]).rtake bufferMax

/-- An entry is logged just if its level, source and message are valid UTF-8. -/
theorem logged_iff
    {dump : Json → Option Bytes} (h : DumpSpec dump) (now : LogTime) (b : LogBroadcaster)
    (level source message : Bytes) :
  (Logged b level source message (b.log dump now level source message)
      ↔ Utf8.Valid level ∧ Utf8.Valid source ∧ Utf8.Valid message)
    ∧ (Logged b level source message (b.emit dump now level source message)
      ↔ Utf8.Valid level ∧ Utf8.Valid source ∧ Utf8.Valid message)
  := by
  have hnone := entryToJson_eq_none h now level source message
  have hlog : Logged b level source message (b.log dump now level source message)
      ↔ Utf8.Valid level ∧ Utf8.Valid source ∧ Utf8.Valid message := by
    rw [log]
    cases hframe : entryToJson dump ⟨level, source, message, nowIso now⟩ with
    | none => simp [hnone.mp hframe, Logged]
    | some frame =>
        have hvalid : Utf8.Valid level ∧ Utf8.Valid source ∧ Utf8.Valid message := by
          by_contra hnot
          rw [hnone.mpr hnot] at hframe
          cases hframe
        simp only [hvalid, and_self, iff_true]
        use nowIso now, frame, b.push ⟨level, source, message, nowIso now⟩, rfl
        constructor
        · apply h.text _ _ hframe
        · apply buffer_push
  constructor
  · apply hlog
  · apply hlog

/-- The serialiser for objects of strings does what is assumed. -/
theorem dumpSpec_dumpStrings :
  DumpSpec Json.dumpStrings
  := by
  constructor
  · intro members
    apply Json.dumpStrings_eq_none
  · intro members text h
    apply Json.isText_dumpStrings h

/-- A log broadcaster with nothing logged. -/
def init : LogBroadcaster where
  buffer := []
  bounded := by simp

theorem logged_started :
  Logged init (Bytes.ofAscii "info") (Bytes.ofAscii "HttpServer") (Bytes.ofAscii "Stopping...")
    (init.log Json.dumpStrings ⟨2026, 1, 12, 14, 23, 1, 7⟩ (Bytes.ofAscii "info")
      (Bytes.ofAscii "HttpServer") (Bytes.ofAscii "Stopping..."))
  := by
  apply (logged_iff dumpSpec_dumpStrings _ _ _ _ _).1.mpr
  and_intros
  all_goals
    apply Utf8.valid_of_ascii
    apply Bytes.ofAscii_lt
    decide

/-- A request for a path that decodes to the byte `0xFF` is not logged. -/
theorem not_logged :
  ¬ ∀ (dump : Json → Option Bytes) (now : LogTime) (b : LogBroadcaster)
      (level source message : Bytes), DumpSpec dump →
        Logged b level source message (b.log dump now level source message)
  := by
  intro h
  have hmem : 0xFF ∈ Bytes.ofAscii "GET /" ++ 0xFF :: Bytes.ofAscii " -> 404" := by simp
  obtain ⟨timestamp, frame, t, hlog, -⟩ := h Json.dumpStrings ⟨2026, 1, 12, 14, 23, 1, 7⟩ init
    (Bytes.ofAscii "warn") (Bytes.ofAscii "HttpServer")
    (Bytes.ofAscii "GET /" ++ 0xFF :: Bytes.ofAscii " -> 404") dumpSpec_dumpStrings
  rw [log, (entryToJson_eq_none dumpSpec_dumpStrings _ _ _ _).mpr
    (fun hvalid => Utf8.not_valid_of_mem hmem hvalid.2.2)] at hlog
  cases hlog

end LogBroadcaster

end NexusMainframe
