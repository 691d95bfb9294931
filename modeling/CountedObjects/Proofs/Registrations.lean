import CountedObjects.Activator

/-! Activators by what was registered with them. A name resolves to the first type registered that
has it as its full name, or else to the first that has it as its own name. -/
namespace CountedObjects

variable {β : Type}

/-- A type that an activator is to resolve, by itself or with one of its constructors. -/
inductive Registration (β : Type)
  | named (d : Descriptor)
  | constructible (c : Constructor β)
  deriving DecidableEq

namespace Registration

def type : Registration β → Descriptor
  | named d => d
  | constructible c => c.declaring

def constructor? : Registration β → Option (Constructor β)
  | named _ => none
  | constructible c => some c

/-- A kind with the constructor that takes no arguments. -/
def ofKind (d : Descriptor) (k : Kind) : Registration Construction :=
  .constructible ⟨d, [], if k.initial?.isSome then .fresh k else .nothing⟩

/-- Kinds one after the other, whose descriptors are built where the registry does not list them. -/
def ofKinds (r : Registry) : List Kind → List (Registration Construction)
  | [] => []
  | k :: ks => ofKind (r.typeOf k).1 k :: ofKinds (r.typeOf k).2 ks

/-- What every activator starts with: the two roots and, as an option, the built-in kinds. -/
def builtins (o : ActivatorOptions) (r : Registry) : List (Registration Construction) :=
  .named r.objectType.1 :: .named r.objectType.2.enumRootType.1 ::
    ofKinds r.objectType.2.enumRootType.2 (if o.builtins then Activator.builtinKinds else [])

end Registration

/-- The options of an activator and all that was registered with it, the first first. -/
structure History (β : Type) where
  options : ActivatorOptions
  registrations : List (Registration β)

namespace History

def types (η : History β) : List Descriptor := η.registrations.map Registration.type

def constructors (η : History β) : List (Constructor β) :=
  η.registrations.filterMap Registration.constructor?

/-- The constructors that were registered for the type, whichever descriptor of it was given. -/
def constructorsOf (η : History β) (d : Descriptor) : List (Constructor β) :=
  η.constructors.filter fun c => c.declaring.id == d.id

/-- The first type with that full name, or else the first with that name. -/
def resolve? (η : History β) (name : String) : Option Descriptor :=
  (η.types.find? (·.fullName == name)).or (η.types.find? (·.draft.name == name))

/-- Of a name that stands for no activator. -/
def unmade : History Construction := ⟨⟨true, true⟩, []⟩

def add (η : History β) (rs : List (Registration β)) : History β :=
  { η with registrations := η.registrations ++ rs }

variable {η : History β} {d : Descriptor} {name : String}

theorem add_nil (η : History β) : η.add [] = η := by
  rw [add, List.append_nil]

theorem add_add (η : History β) (rs rs' : List (Registration β)) :
    (η.add rs).add rs' = η.add (rs ++ rs') := by
  rw [add, add, add, List.append_assoc]

theorem types_add (η : History β) (rs : List (Registration β)) :
    (η.add rs).types = η.types ++ rs.map Registration.type :=
  List.map_append

theorem mem_of_resolve? (h : η.resolve? name = some d) :
    d ∈ η.types ∧ (d.fullName = name ∨ d.draft.name = name) := by
  rcases Option.or_eq_some_iff.mp h with hfull | ⟨-, hshort⟩
  · have hname := List.find?_some hfull
    exact ⟨List.mem_of_find?_eq_some hfull, .inl (by simpa using hname)⟩
  · have hname := List.find?_some hshort
    exact ⟨List.mem_of_find?_eq_some hshort, .inr (by simpa using hname)⟩

theorem isSome_resolve? (hd : d ∈ η.types) (hname : d.fullName = name ∨ d.draft.name = name) :
    (η.resolve? name).isSome := by
  rw [resolve?, Option.isSome_or, Bool.or_eq_true, List.find?_isSome, List.find?_isSome]
  rcases hname with hfull | hshort
  · exact .inl ⟨d, hd, beq_iff_eq.mpr hfull⟩
  · exact .inr ⟨d, hd, beq_iff_eq.mpr hshort⟩

/-- A full name belongs to the first type that was registered under it for good. -/
theorem resolve?_add_of_mem (rs : List (Registration β)) (h : η.resolve? name = some d)
    (hfull : ∃ e ∈ η.types, e.fullName = name) : (η.add rs).resolve? name = some d := by
  obtain ⟨e, he, hname⟩ := hfull
  have hfound : (η.types.find? (·.fullName == name)).isSome :=
    List.find?_isSome.mpr ⟨e, he, beq_iff_eq.mpr hname⟩
  obtain ⟨x, hx⟩ := Option.isSome_iff_exists.mp hfound
  have hd : x = d := by
    rw [resolve?, hx, Option.some_or] at h
    exact Option.some.inj h
  rw [resolve?, types_add, List.find?_append, hx, Option.some_or, Option.some_or, hd]

/-- A name that is no full name so far goes to the first type with that full name. -/
theorem resolve?_add_of_forall (rs : List (Registration β)) (h : η.resolve? name = some d)
    (hfull : ∀ e ∈ η.types, e.fullName ≠ name) :
    (η.add rs).resolve? name =
      some (((rs.map Registration.type).find? (·.fullName == name)).getD d) := by
  have hnone : η.types.find? (·.fullName == name) = none :=
    List.find?_eq_none.mpr fun e he => by simpa using hfull e he
  have hshort : η.types.find? (·.draft.name == name) = some d := by
    rwa [resolve?, hnone, Option.none_or] at h
  rw [resolve?, types_add, List.find?_append, hnone, Option.none_or, List.find?_append, hshort,
    Option.some_or]
  cases (rs.map Registration.type).find? (·.fullName == name) <;> rfl

end History

namespace Activator

variable {a : Activator β} {η : History β}

def register (a : Activator β) : Registration β → Activator β
  | .named d => a.bindType d
  | .constructible c => a.addConstructor c.declaring c.parameters c.body

def registerAll (a : Activator β) (rs : List (Registration β)) : Activator β :=
  rs.foldl register a

/-- The tables of an activator have what was registered with it. -/
structure Records (a : Activator β) (η : History β) : Prop where
  options : a.options = η.options
  constructors : a.constructors = η.constructors
  fullNames : ∀ name, a.fullNames.lookup name = η.types.find? (·.fullName == name)
  shortNames : ∀ name, a.shortNames.lookup name = η.types.find? (·.draft.name == name)

theorem lookup_bindFirst (name other : String) (d : Descriptor)
    (names : List (String × Descriptor)) :
    (bindFirst name d names).lookup other =
      (names.lookup other).or (if name == other then some d else none) := by
  unfold bindFirst
  split
  · next hbound =>
    by_cases hn : name = other
    · subst hn
      obtain ⟨e, he⟩ := Option.isSome_iff_exists.mp hbound
      rw [he, Option.some_or]
    · have hb : (name == other) = false := beq_eq_false_iff_ne.mpr hn
      rw [hb, if_neg Bool.false_ne_true, Option.or_none]
  · rw [List.lookup_append, List.lookup_cons, List.lookup_nil, BEq.comm]
    cases name == other <;> rfl

theorem find?_concat {α : Type} (p : α → Bool) (xs : List α) (x : α) :
    (xs ++ [x]).find? p = (xs.find? p).or (if p x then some x else none) := by
  rw [List.find?_append, List.find?_singleton]

theorem records_nil (o : ActivatorOptions) :
    (⟨o, [], [], []⟩ : Activator β).Records ⟨o, []⟩ :=
  ⟨rfl, rfl, fun _ => rfl, fun _ => rfl⟩

theorem Records.bindType (h : a.Records η) (r : Registration β) :
    (∀ name, (a.bindType r.type).fullNames.lookup name =
      (η.add [r]).types.find? (·.fullName == name)) ∧
    ∀ name, (a.bindType r.type).shortNames.lookup name =
      (η.add [r]).types.find? (·.draft.name == name) := by
  have hadd : (η.add [r]).types = η.types ++ [r.type] := η.types_add [r]
  constructor
  · intro name
    rw [hadd, find?_concat, ← h.fullNames]
    exact lookup_bindFirst ..
  · intro name
    rw [hadd, find?_concat, ← h.shortNames]
    exact lookup_bindFirst ..

theorem Records.register (h : a.Records η) (r : Registration β) :
    (a.register r).Records (η.add [r]) := by
  obtain ⟨hfull, hshort⟩ := h.bindType r
  have hadd : (η.add [r]).constructors = η.constructors ++ r.constructor?.toList := by
    rw [History.constructors, History.add, List.filterMap_append]
    cases r <;> rfl
  cases r with
  | named d =>
    refine ⟨h.options, ?_, hfull, hshort⟩
    rw [hadd, ← h.constructors]
    exact (List.append_nil _).symm
  | constructible c =>
    refine ⟨h.options, ?_, hfull, hshort⟩
    rw [hadd, ← h.constructors]
    rfl

theorem Records.registerAll (h : a.Records η) (rs : List (Registration β)) :
    (a.registerAll rs).Records (η.add rs) := by
  induction rs generalizing a η with
  | nil =>
    rw [η.add_nil]
    exact h
  | cons r rs ih =>
    have hr := ih (h.register r)
    rwa [η.add_add] at hr

/-- The activator with which all this was registered, and nothing else. -/
def ofHistory (η : History β) : Activator β := registerAll ⟨η.options, [], [], []⟩ η.registrations

theorem records_ofHistory (η : History β) : (ofHistory η).Records η :=
  (records_nil η.options).registerAll η.registrations

theorem foldl_registerDefault (a : Activator Construction) (r : Realm) (ks : List Kind) :
    (ks.foldl (fun (a, r) k => (a.registerDefault k r).2) (a, r)).1 =
      a.registerAll (Registration.ofKinds r.registry ks) := by
  induction ks generalizing a r with
  | nil => rfl
  | cons k ks ih => exact ih _ _

theorem make_records (o : ActivatorOptions) (r : Realm) :
    (make o r).1.Records ⟨o, Registration.builtins o r.registry⟩ := by
  have hmake : (make o r).1 = ofHistory ⟨o, Registration.builtins o r.registry⟩ :=
    foldl_registerDefault ..
  rw [hmake]
  exact records_ofHistory _

/-- How names resolve in an activator. The names of every registered type do, and a name resolves to
no type but one that has it. -/
structure Resolves (a : Activator β) (η : History β) : Prop where
  getType : ∀ name, a.getType name =
    match η.resolve? name with
    | some d => .ok d
    | none => .error (.unknownType name)
  resolved : ∀ d ∈ η.types, (a.getType d.fullName).isOk ∧ (a.getType d.draft.name).isOk
  named : ∀ name d, a.getType name = .ok d →
    d ∈ η.types ∧ (d.fullName = name ∨ d.draft.name = name)

theorem Records.getType_eq (h : a.Records η) (name : String) :
    a.getType name =
      match η.resolve? name with
      | some d => .ok d
      | none => .error (.unknownType name) := by
  rw [Activator.getType, h.fullNames, h.shortNames, History.resolve?]
  cases η.types.find? (·.fullName == name) with
  | some d => rfl
  | none => cases η.types.find? (·.draft.name == name) <;> rfl

theorem Records.getType_eq_ok_iff (h : a.Records η) {name : String} {d : Descriptor} :
    a.getType name = .ok d ↔ η.resolve? name = some d := by
  rw [h.getType_eq]
  cases η.resolve? name with
  | none => simp
  | some e => simp

theorem Records.isOk_getType (h : a.Records η) {name : String} {d : Descriptor} (hd : d ∈ η.types)
    (hname : d.fullName = name ∨ d.draft.name = name) : (a.getType name).isOk := by
  obtain ⟨e, he⟩ := Option.isSome_iff_exists.mp (History.isSome_resolve? hd hname)
  rw [h.getType_eq_ok_iff.mpr he]
  rfl

theorem Records.resolves (h : a.Records η) : a.Resolves η where
  getType := h.getType_eq
  resolved _ hd := ⟨h.isOk_getType hd (.inl rfl), h.isOk_getType hd (.inr rfl)⟩
  named _ _ hd := History.mem_of_resolve? (h.getType_eq_ok_iff.mp hd)

end Activator

end CountedObjects
