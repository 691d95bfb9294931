import CountedObjects.Text.Numeral

/-! What can go wrong, and how each case is worded. -/
namespace CountedObjects

inductive ObjectError
  | nullReference
  | invalidCast (expected actual : String)
  | parse (text target reason : String)
  | unknownMember (type name : String)
  | notAnEnum (type : String)
  | abstractType (type : String)
  | notConstructible (type : String)
  | noMatchingConstructor (type : String) (count : Nat)
  | unknownType (name : String)
  | argumentCount (expected got : Nat)
  deriving DecidableEq, Repr

namespace ObjectError

def message : ObjectError → String
  | nullReference => "Pointer is not initialized"
  | invalidCast e a => s!"Cast cannot be performed: expected {e}, got {a}"
  | parse x t r => s!"Cannot parse '{x}' as {t}: {r}"
  | unknownMember t n => s!"'{n}' is not a member of enum {t}"
  | notAnEnum t => s!"Type {t} is not an enum"
  | abstractType t => s!"Cannot create an instance of abstract type {t}"
  | notConstructible t => s!"Type {t} does not have registered constructors"
  | noMatchingConstructor t n =>
    s!"No matching public constructor was found for {t} with {Text.numeralText n} argument(s)"
  | unknownType n => s!"Type {n} is not registered"
  | argumentCount e g =>
    s!"Wrong number of arguments: expected {Text.numeralText e}, got {Text.numeralText g}"

/-- Whether the error says that something was looked up and not found. -/
def isLookup : ObjectError → Bool
  | unknownMember .. | unknownType _ | notConstructible _ | noMatchingConstructor .. => true
  | _ => false

end ObjectError

inductive CollectionError
  | indexOutOfRange (index count : Nat)
  | keyNotFound (key : String)
  | duplicateKey (key : String)
  | empty
  | object (e : ObjectError)
  deriving DecidableEq, Repr

namespace CollectionError

def message : CollectionError → String
  | indexOutOfRange i n =>
    s!"Index {Text.numeralText i} is out of range for a collection of "
      ++ s!"{Text.numeralText n} element(s)"
  | keyNotFound k => s!"The given key '{k}' was not present in the dictionary"
  | duplicateKey k => s!"An element with the same key '{k}' already exists in the dictionary"
  | empty => "Collection is empty"
  | object e => e.message

end CollectionError

/-- A failure that is reported to the caller, or one that aborts the step. -/
inductive Fault
  | object (e : ObjectError)
  | collection (e : CollectionError)
  | abort (e : ObjectError)
  deriving DecidableEq, Repr

/-- Whether a conversion that fails so names the type that it expected. It does so of every object
that it refuses, but not where there is none. -/
def Fault.namesExpected : Fault → Bool
  | object .nullReference | collection (.object .nullReference) => false
  | _ => true

abbrev Result (α : Type) := Except Fault α

def Result.ofObject {α : Type} : Except ObjectError α → Result α
  | .ok a => .ok a
  | .error e => .error (.object e)

/-- Turns a reported object error into one that aborts. -/
def Result.insist {α : Type} : Result α → Result α
  | .error (.object e) => .error (.abort e)
  | r => r

end CountedObjects
