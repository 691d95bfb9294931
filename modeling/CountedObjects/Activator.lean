import CountedObjects.Collection.Sequence
import CountedObjects.Realm
import CountedObjects.Text.Quoted

/-! Activators: names of types, constructors of types, and the choice of a constructor by the
arguments it is given. -/
namespace CountedObjects

/-- The state of a new object of a kind that needs no arguments. -/
def Kind.initial? : Kind → Option Body
  | scalar k => some (.boxed (k.wrap k.zero))
  | string => some (.text "")
  | plain => some .plain
  | animal => some .animal
  | dog => some .dog
  | list t => some (.collection (.list t []))
  | queue t => some (.collection (.queue t []))
  | hashSet t => some (.collection (.hashSet t []))
  | dictionary k v => some (.collection (.dictionary k v []))
  | _ => none

structure Parameter where
  name : String
  type : TypeHandle
  deriving DecidableEq

/-- A constructor of a type, with the body that it was registered with. -/
structure Constructor (β : Type) where
  declaring : Descriptor
  parameters : List Parameter
  body : β
  deriving DecidableEq

/-- What bodies of a form do: one makes an object of the declaring type from the arguments, or
fails. -/
abbrev Running (β : Type) := Descriptor → β → List Handle → Realm → Result Handle × Realm

/-- The bodies that the steps of a session register. -/
inductive Construction
  | assemble (tag : String)
  | nothing
  | argument (i : Nat)
  | refuse
  | convert (i : Nat) (t : ElementType)
  | fresh (k : Kind)
  deriving DecidableEq

structure ActivatorOptions where
  builtins : Bool
  derived : Bool

/-- The tables of an activator. Constructors are kept in the order of registration; a name keeps
the first descriptor that was bound to it. -/
structure Activator (β : Type) where
  options : ActivatorOptions
  constructors : List (Constructor β)
  fullNames : List (String × Descriptor)
  shortNames : List (String × Descriptor)

namespace Parameter

/-- Null fits every parameter. Otherwise the descriptor of the argument must be that of the
parameter or, where derived arguments match, derive from it. -/
def accepts (p : Parameter) (s : Store) (argument : Handle) (derived : Bool) : Result Bool := do
  if argument.isNull then return true
  let actual ← s.reportedType argument
  if actual = p.type then return true
  if derived then (← p.type.demand).isAssignableFrom (← actual.demand) else return false

end Parameter

/-- Runs a body of a session on the arguments. The handle that results is counted for the caller. -/
def Construction.run : Running Construction
  | d, assemble tag, hs, r => (r.make (.dyn (some d) tag hs)).map .ok id
  | _, nothing, _, r => (.ok .null, r)
  | _, argument i, hs, r => (r.share (hs[i]?.getD .null)).map .ok id
  | _, refuse, _, r => (.error (.object .nullReference), r)
  | _, convert i t, hs, r =>
    match t.ofObject r.store (hs[i]?.getD .null) with
    | .ok v => (r.toObject t v).map .ok id
    | .error e => (.error e, r.converting t.required? (.error e : Result t.Value))
  | _, fresh k, _, r =>
    match k.initial? with
    | some b => (r.make b).map .ok id
    | none => (.ok .null, r)

namespace Constructor

variable {β : Type}

/-- Arguments are tried from the left up to the first that is not accepted. -/
def acceptsAll (s : Store) (derived : Bool) : List Parameter → List Handle → Result Bool
  | p :: ps, h :: hs => do
    if ← p.accepts s h derived then acceptsAll s derived ps hs else return false
  | _, _ => return true

def admits (c : Constructor β) (s : Store) (arguments : List Handle) (derived : Bool) :
    Result Bool :=
  if c.parameters.length = arguments.length then acceptsAll s derived c.parameters arguments
  else .ok false

/-- Runs the body on the arguments, whose number must be right. -/
def invoke (run : Running β) (c : Constructor β) (arguments : List Handle) (r : Realm) :
    Result Handle × Realm :=
  if c.parameters.length = arguments.length then run c.declaring c.body arguments r
  else (.error (.object (.argumentCount c.parameters.length arguments.length)), r)

/-- A short account: the declaring type and the number of parameters. -/
def summary (c : Constructor β) : String :=
  "ConstructorInfo \x7b declaring_type: " ++ Text.quoted c.declaring.fullName ++ ", parameters: "
    ++ Text.numeralText c.parameters.length ++ " \x7d"

end Constructor

namespace ActivatorOptions

private def flagText (b : Bool) : String := if b then "true" else "false"

def summary (o : ActivatorOptions) : String :=
  "ActivatorOptions \x7b register_builtins: " ++ flagText o.builtins
    ++ ", match_derived_arguments: " ++ flagText o.derived ++ " \x7d"

end ActivatorOptions

namespace Activator

variable {β : Type}

def bindFirst (name : String) (d : Descriptor) (names : List (String × Descriptor)) :
    List (String × Descriptor) :=
  if (names.lookup name).isSome then names else names ++ [(name, d)]

/-- Makes a descriptor resolvable by its full name and by its own name. -/
def bindType (a : Activator β) (d : Descriptor) : Activator β :=
  { a with
    fullNames := bindFirst d.fullName d a.fullNames
    shortNames := bindFirst d.draft.name d a.shortNames }

def addConstructor (a : Activator β) (d : Descriptor) (ps : List Parameter) (b : β) :
    Activator β :=
  let a := a.bindType d
  { a with constructors := a.constructors ++ [⟨d, ps, b⟩] }

def registerType (a : Activator β) (t : TypeHandle) : Result (Activator β) := do
  return a.bindType (← t.demand)

/-- A full name takes precedence over an unqualified one. -/
def getType (a : Activator β) (name : String) : Except ObjectError Descriptor :=
  match a.fullNames.lookup name with
  | some d => .ok d
  | none =>
    match a.shortNames.lookup name with
    | some d => .ok d
    | none => .error (.unknownType name)

/-- The constructors of all descriptors of one type. -/
def constructorsOf (a : Activator β) (d : Descriptor) : List (Constructor β) :=
  a.constructors.filter fun c => c.declaring.id == d.id

/-- The first constructor that admits the arguments. -/
def choose (s : Store) (arguments : List Handle) (derived : Bool) :
    List (Constructor β) → Result (Option (Constructor β))
  | [] => return none
  | c :: cs => do
    if ← c.admits s arguments derived then return some c else choose s arguments derived cs

/-- The constructor that creates an instance from the arguments, or why there is none. -/
def select (a : Activator β) (s : Store) (t : TypeHandle) (arguments : List Handle) :
    Result (Constructor β) := do
  let d ← Result.ofObject t.get
  if d.isAbstract then throw (.object (.abstractType d.fullName))
  let cs := a.constructorsOf d
  if cs.isEmpty then throw (.object (.notConstructible d.fullName))
  match ← choose s arguments a.options.derived cs with
  | some c => return c
  | none => throw (.object (.noMatchingConstructor d.fullName arguments.length))

def create (run : Running β) (a : Activator β) (t : TypeHandle) (arguments : List Handle)
    (r : Realm) : Result Handle × Realm :=
  match a.select r.store t arguments with
  | .ok c => c.invoke run arguments r
  | .error e => (.error e, r)

def createByName (run : Running β) (a : Activator β) (name : String) (arguments : List Handle)
    (r : Realm) : Result Handle × Realm :=
  match a.getType name with
  | .ok d => a.create run (some d) arguments r
  | .error e => (.error (.object e), r)

def parseEnum (a : Activator β) (name text : String) : Except ObjectError Body := do
  EnumValue.parse (some (← a.getType name)) text

/-- The number of types that have constructors. -/
def constructible (a : Activator β) : Nat :=
  (a.constructors.map fun c => c.declaring.id).eraseDups.length

def summary (a : Activator β) : String :=
  "Activator \x7b options: " ++ a.options.summary
    ++ ", types: " ++ Text.numeralText a.fullNames.length
    ++ ", constructible: " ++ Text.numeralText a.constructible ++ " \x7d"

end Activator

namespace Activator

/-- Registers the constructor without parameters of a kind. -/
def registerDefault (a : Activator Construction) (k : Kind) (r : Realm) :
    Descriptor × Activator Construction × Realm :=
  let (d, registry) := r.registry.typeOf k
  let b := if k.initial?.isSome then .fresh k else .nothing
  (d, a.addConstructor d [] b, { r with registry := registry })

def builtinKinds : List Kind :=
  [.scalar .bool, .scalar .char, .scalar .int, .scalar .long, .scalar .double, .string, .plain]

/-- Every activator knows the two abstract roots; the built-in kinds are an option. -/
def make (o : ActivatorOptions) (r : Realm) : Activator Construction × Realm :=
  let (object, registry) := r.registry.objectType
  let (enumRoot, registry) := registry.enumRootType
  let a := (Activator.mk o [] [] [] : Activator Construction).bindType object |>.bindType enumRoot
  let kinds := if o.builtins then builtinKinds else []
  kinds.foldl (fun (a, r) k => (a.registerDefault k r).2) (a, { r with registry := registry })

end Activator

end CountedObjects
