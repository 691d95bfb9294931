import CountedObjects.Session.Literal
import CountedObjects.Session.Answer

/-! Steps on activators. -/
namespace CountedObjects

inductive ActivatorStep
  | new (a : String) (o : ActivatorOptions)
  | registerType (a type : String)
  | registerDefault (a : String) (k : Kind)
  | registerEnum (a : String) (e : Enumeration)
  | registerConstructor (a type : String) (parameters : List (String × String)) (b : Construction)
  | getType (a name : String)
  | constructors (a type : String)
  | admits (a type : String) (i : Nat) (arguments : List Literal) (derived : Bool)
  | invoke (a type : String) (i : Nat) (arguments : List Literal)
  | create (a type : String) (arguments : List Literal) (target : Option String)
  | createByName (a name : String) (arguments : List Literal) (target : Option String)
  | parseEnum (a name text : String) (target : Option String)
  | summary (a : String)

namespace Session

/-- A name that no activator has stands for one where nothing is registered. -/
def activator (s : Session) (name : String) : Activator Construction :=
  (s.activators.lookup name).getD ⟨⟨true, true⟩, [], [], []⟩

def setActivator (s : Session) (name : String) (a : Activator Construction) : Session :=
  { s with activators := Named.set name a s.activators }

def constructorView (s : Session) (c : Constructor Construction) : ConstructorView :=
  ⟨s.typeView (some c.declaring), c.parameters.map fun p => ⟨p.name, s.typeView p.type⟩, c.summary⟩

end Session

namespace Action

/-- The constructor at a position among those of a type. -/
def constructorAt (a type : String) (i : Nat) : Action (Constructor Construction) := do
  let d ← ofResult (← ask (·.type type)).demand
  match (← ask fun s => (s.activator a).constructorsOf d)[i]? with
  | some c => return c
  | none => throw (.object (.notConstructible d.fullName))

def activatorStep : ActivatorStep → Action Answer
  | .new a o => do
    let s ← get
    let (act, r) := Activator.make o s.realm
    set ({ s with realm := r }.setActivator a act)
    return .options act.options
  | .registerType a type => do
    let s ← get
    let act ← ofResult ((s.activator a).registerType (s.type type))
    set (s.setActivator a act)
    return .nothing
  | .registerDefault a k => do
    let s ← get
    let (d, act, r) := (s.activator a).registerDefault k s.realm
    set ({ s with realm := r }.setActivator a act)
    return .type (s.typeView (some d))
  | .registerEnum a e => do
    let d ← enumType e
    change fun s => s.setActivator a ((s.activator a).bindType d)
    return .type (← ask (·.typeView (some d)))
  | .registerConstructor a type parameters b => do
    let s ← get
    let d ← ofResult (s.type type).demand
    let act := (s.activator a).addConstructor d (parameters.map fun p => ⟨p.1, s.type p.2⟩) b
    set (s.setActivator a act)
    return .number (act.constructorsOf d).length
  | .getType a name => do
    let d ← ofObject (← ask fun s => (s.activator a).getType name)
    return .type (← ask (·.typeView (some d)))
  | .constructors a type => do
    let d ← ofResult (← ask (·.type type)).demand
    return .constructors (← ask fun s => ((s.activator a).constructorsOf d).map s.constructorView)
  | .admits a type i arguments derived => do
    let hs ← Literal.buildAll arguments
    let c ← constructorAt a type i
    return .flag (← query fun s => c.admits s hs derived)
  | .invoke a type i arguments => do
    let hs ← Literal.buildAll arguments
    let c ← constructorAt a type i
    return .object (← view (← attempt (c.invoke Construction.run hs)))
  | .create a type arguments target => do
    let hs ← Literal.buildAll arguments
    let s ← get
    let o ← attempt ((s.activator a).create Construction.run (s.type type) hs)
    return .object (← deliver target o)
  | .createByName a name arguments target => do
    let hs ← Literal.buildAll arguments
    let s ← get
    let o ← attempt ((s.activator a).createByName Construction.run name hs)
    return .object (← deliver target o)
  | .parseEnum a name text target => do
    let b ← ofObject (← ask fun s => (s.activator a).parseEnum name text)
    return .object (← deliver target (← make b))
  | .summary a => do return .text (← ask fun s => (s.activator a).summary)

end Action

end CountedObjects
