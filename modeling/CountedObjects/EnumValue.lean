import CountedObjects.Cast

/-! Boxed members of enumerations: an ordinal under the descriptor of its enumeration. -/
namespace CountedObjects.EnumValue

/-- A descriptor of an enumeration behind a handle. -/
def demandEnum (t : TypeHandle) : Except ObjectError Descriptor := do
  let d ← t.get
  if d.isEnum then return d else throw (.notAnEnum d.fullName)

/-- Any ordinal is allowed, also one that no member has. -/
def ofOrdinal (t : TypeHandle) (n : Int32) : Except ObjectError Body := do
  return .enumValue (← demandEnum t) n

def parse (t : TypeHandle) (text : String) : Except ObjectError Body := do
  let d ← demandEnum t
  match d.ordinal? text with
  | some n => return .enumValue d n
  | none => throw (.unknownMember d.fullName text)

/-- The member of `e` that an ordinal under `d` stands for. `expected` is the descriptor of `e`. -/
def member (e : Enumeration) (expected d : Descriptor) (n : Int32) :
    Except ObjectError (String × Int32) :=
  if expected = d then
    match e.ofOrdinal? n with
    | some m => .ok m
    | none =>
      .error (.invalidCast expected.fullName (d.fullName ++ "(" ++ Text.numeralText n.toInt ++ ")"))
  else .error (.invalidCast expected.fullName d.fullName)

def unbox (s : Store) (e : Enumeration) (expected : Descriptor) (h : Handle) :
    Result (String × Int32) :=
  if h.isNull then .error (.object .nullReference)
  else
    match s.body? h with
    | some (.enumValue d n) => .ofObject (member e expected d n)
    | _ => s.mismatch expected.fullName h

/-- The descriptor and ordinal behind a handle that has been cast to an enum value. -/
def demand (s : Store) (h : Handle) : Result (Descriptor × Int32) :=
  match s.body? h with
  | some (.enumValue d n) => .ok (d, n)
  | _ => .error (.abort .nullReference)

end CountedObjects.EnumValue
