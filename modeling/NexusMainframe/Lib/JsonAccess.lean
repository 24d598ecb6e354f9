import NexusMainframe.Lib.JsonCodec

/-!
# Accesses to constant JSON values

An access to a value that is constant comes to a value, throws, or is undefined: a key that is
absent, or an index behind the end of an array, is not looked for by the operators that do not
change the value. On a value of another type they throw.
-/

namespace Json

/-- What an access comes to. -/
inductive Access (α : Type) where
  | value (a : α)
  | threw
  | undefined
deriving DecidableEq

namespace Access

variable {α β : Type}

/-- What comes behind a throw or an undefined access does not happen. -/
def bind : Access α → (α → Access β) → Access β
  | value a, f => f a
  | threw, _ => threw
  | undefined, _ => undefined

instance instMonad : Monad Access where
  pure := value
  bind := bind

/-- An access that may throw, and nothing else. -/
def ofOption : Option α → Access α
  | some a => value a
  | none => threw

@[simp]
theorem value_bind (a : α) (f : α → Access β) :
  (value a >>= f) = f a
  := rfl

@[simp]
theorem threw_bind (f : α → Access β) :
  (threw >>= f) = threw
  := rfl

@[simp]
theorem undefined_bind (f : α → Access β) :
  (undefined >>= f) = undefined
  := rfl

@[simp]
theorem pure_eq (a : α) :
  (pure a : Access α) = value a
  := rfl

@[simp]
theorem ofOption_some (a : α) :
  ofOption (some a) = value a
  := rfl

@[simp]
theorem ofOption_none :
  ofOption (none : Option α) = threw
  := rfl

/-- Accesses that may throw, one after the other. -/
theorem ofOption_bind (o : Option α) (f : α → Option β) :
  (ofOption o >>= fun a => ofOption (f a)) = ofOption (o.bind f)
  := by
  cases o <;> rfl

end Access

/-- `contains`. -/
def contains (key : Bytes) (j : Json) : Bool :=
  (j.member key).isSome

/-- `operator[]` of a constant value with a key. -/
def constAt (key : Bytes) : Json → Access Json
  | object members =>
      match members.lookup key with
      | some j => .value j
      | none => .undefined
  | _ => .threw

/-- `operator[]` of a constant value with an index. -/
def constIndex (i : Nat) : Json → Access Json
  | array elements =>
      match elements[i]? with
      | some j => .value j
      | none => .undefined
  | _ => .threw

/-- `value` with a key and a default. -/
def valueOr {α : Type} (convert : Json → Option α) (key : Bytes) (fallback : α) (j : Json) :
    Access α :=
  .ofOption (j.valueAs convert key fallback)

/-- A key that is there is found. -/
theorem constAt_of_member {key : Bytes} {j v : Json} (h : j.member key = some v) :
  constAt key j = .value v
  := by
  cases j with
  | object members =>
      have h : members.lookup key = some v := h
      rw [constAt, h]
  | _ => cases h

/-- Where `value` does not throw, a key that is absent is looked for in vain. -/
theorem constAt_of_not_member {α : Type} {convert : Json → Option α} {key key' : Bytes}
    {fallback a : α} {j : Json} (hvalue : j.valueAs convert key' fallback = some a)
    (h : j.member key = none) :
  constAt key j = .undefined
  := by
  cases j with
  | object members =>
      have h : members.lookup key = none := h
      rw [constAt, h]
  | _ => cases hvalue

theorem contains_of_member {key : Bytes} {j v : Json} (h : j.member key = some v) :
  contains key j = true
  := by
  rw [contains, h]
  rfl

theorem contains_of_not_member {key : Bytes} {j : Json} (h : j.member key = none) :
  contains key j = false
  := by
  rw [contains, h]
  rfl

end Json
