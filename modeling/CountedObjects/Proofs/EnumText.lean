import CountedObjects.Proofs.Digits
import CountedObjects.Proofs.EnumTypes
import CountedObjects.Proofs.Store.Equality

/-! The texts of enum values. A member is found by its name and its name by its ordinal, each time
the first one declared. Where names are distinct the two searches undo one another up to members
that share an ordinal. -/
namespace CountedObjects

namespace Descriptor

variable {d : Descriptor} {name text : String} {n : Int32}

theorem mem_of_ordinal? (h : d.ordinal? name = some n) : (name, n) ∈ d.members := by
  obtain ⟨m, hm, rfl⟩ := Option.map_eq_some_iff.mp h
  have hname : m.1 = name := by simpa using List.find?_some hm
  rw [← hname]
  exact List.mem_of_find?_eq_some hm

/-- With distinct names, a member's name gives its ordinal. -/
theorem ordinal?_of_mem (hd : (d.members.map Prod.fst).Nodup) (h : (name, n) ∈ d.members) :
    d.ordinal? name = some n := by
  have hsome : (d.members.find? (·.1 == name)).isSome := List.find?_isSome.mpr ⟨_, h, by simp⟩
  obtain ⟨m, hm⟩ := Option.isSome_iff_exists.mp hsome
  have hname : m.1 = name := by simpa using List.find?_some hm
  have heq : m = (name, n) := List.inj_on_of_nodup_map hd (List.mem_of_find?_eq_some hm) h hname
  rw [ordinal?, hm, heq]
  rfl

theorem ordinal?_eq_none (h : name ∉ d.members.map Prod.fst) : d.ordinal? name = none := by
  rw [ordinal?, Option.map_eq_none_iff, List.find?_eq_none]
  intro m hm hname
  exact h (List.mem_map.mpr ⟨m, hm, beq_iff_eq.mp hname⟩)

theorem exists_first (h : ∃ m ∈ d.members, m.2 = n) :
    ∃ before name after, d.members = before ++ (name, n) :: after ∧ ∀ m ∈ before, m.2 ≠ n := by
  obtain ⟨m, hm, hn⟩ := h
  have hsome : (d.members.find? (·.2 == n)).isSome :=
    List.find?_isSome.mpr ⟨m, hm, beq_iff_eq.mpr hn⟩
  obtain ⟨x, hx⟩ := Option.isSome_iff_exists.mp hsome
  obtain ⟨hx, before, after, hsplit, hbefore⟩ := List.find?_eq_some_iff_append.mp hx
  have hxn : x.2 = n := by simpa using hx
  refine ⟨before, x.1, after, ?_, fun m hm => by simpa using hbefore m hm⟩
  rw [hsplit, ← hxn]

theorem memberText_of_first {before after : List (String × Int32)}
    (hsplit : d.members = before ++ (name, n) :: after) (hbefore : ∀ m ∈ before, m.2 ≠ n) :
    d.memberText n = name := by
  have hfind : d.members.find? (·.2 == n) = some (name, n) := by
    rw [List.find?_eq_some_iff_append]
    exact ⟨by simp, before, after, hsplit, fun m hm => by simpa using hbefore m hm⟩
  rw [memberText, memberName?, hfind]
  rfl

theorem memberText_of_unnamed (h : ∀ m ∈ d.members, m.2 ≠ n) :
    d.memberText n = toString n.toInt := by
  have hnone : d.members.find? (·.2 == n) = none :=
    List.find?_eq_none.mpr fun m hm => by simpa using h m hm
  rw [memberText, memberName?, hnone, ← Text.numeralText_eq]
  rfl

end Descriptor

namespace Store

variable {s : Store} {o : Handle} {d : Descriptor} {n : Int32}

theorem shape_enumValue (h : s.body? o = some (.enumValue d n)) :
    s.shape o = .enumValue d n := by
  obtain ⟨id, rfl, -⟩ := equals_of_body? h o
  obtain ⟨c, hc, hb⟩ := Option.map_eq_some_iff.mp h
  rw [shape, hc]
  simp only [hb]

theorem display_enumValue (h : s.body? o = some (.enumValue d n)) :
    s.display o = .ok (d.memberText n) := by
  rw [display, shape_enumValue h]
  rfl

end Store

namespace EnumValue

variable {d : Descriptor} {text : String} {n : Int32}

theorem ofOrdinal_of_isEnum (h : d.isEnum = true) (n : Int32) :
    ofOrdinal (some d) n = .ok (.enumValue d n) := by
  simp [ofOrdinal, demandEnum, TypeHandle.get, h, pure, Except.pure, bind, Except.bind]

theorem parse_of_ordinal?_eq_none (h : d.isEnum = true) (hn : d.ordinal? text = none) :
    parse (some d) text = .error (.unknownMember d.fullName text) := by
  simp [parse, demandEnum, TypeHandle.get, h, hn, pure, Except.pure, bind, Except.bind, throw,
    throwThe, MonadExceptOf.throw]

theorem parse_eq_ok_iff (h : d.isEnum = true) {b : Body} :
    parse (some d) text = .ok b ↔ ∃ n, d.ordinal? text = some n ∧ b = .enumValue d n := by
  cases hn : d.ordinal? text with
  | none => simp [parse_of_ordinal?_eq_none h hn]
  | some n => simp [parse_of_ordinal? h hn, eq_comm]

/-- The texts of an enumeration's values, and what is parsed. Members may share an ordinal, and an
ordinal may have no member. -/
structure Parses (d : Descriptor) : Prop where
  ofOrdinal : ∀ n, EnumValue.ofOrdinal (some d) n = .ok (.enumValue d n)
  display : ∀ (s : Store) o n, s.body? o = some (.enumValue d n) →
    s.display o = .ok (d.memberText n)
  equals : ∀ (s : Store) o o' n m, s.body? o = some (.enumValue d n) →
    s.body? o' = some (.enumValue d m) → (s.equals o o' = true ↔ n = m)
  named : ∀ n, (∃ m ∈ d.members, m.2 = n) →
    parse (some d) (d.memberText n) = .ok (.enumValue d n)
  unnamed : ∀ n, (∀ m ∈ d.members, m.2 ≠ n) →
    d.memberText n = toString n.toInt ∧
    (toString n.toInt ∉ d.members.map Prod.fst → parse (some d) (toString n.toInt) =
      .error (.unknownMember d.fullName (toString n.toInt))) ∧
    (toString n.toInt ∈ d.members.map Prod.fst →
      ∃ m, m ≠ n ∧ parse (some d) (toString n.toInt) = .ok (.enumValue d m))
  parsed : ∀ text b,
    parse (some d) text = .ok b ↔ ∃ n, (text, n) ∈ d.members ∧ b = .enumValue d n
  refused : ∀ text, text ∉ d.members.map Prod.fst →
    parse (some d) text = .error (.unknownMember d.fullName text)
  text_parsed : ∀ text b, parse (some d) text = .ok b →
    ∃ n before name after, b = .enumValue d n ∧ d.members = before ++ (name, n) :: after ∧
      (∀ m ∈ before, m.2 ≠ n) ∧ d.memberText n = name

/-- An enumeration whose members have distinct names parses these and nothing else. An ordinal's
text is parsed to an equal value if some member has it. -/
theorem parse_text (d : Descriptor) (henum : d.isEnum = true)
    (hd : (d.members.map Prod.fst).Nodup) : Parses d where
  ofOrdinal := ofOrdinal_of_isEnum henum
  display _ _ _ := Store.display_enumValue
  equals s o o' n m ho ho' := by
    rw [Store.equals_enumValue ho ho']
    exact and_iff_right rfl
  named n hn := by
    obtain ⟨before, name, after, hsplit, hbefore⟩ := Descriptor.exists_first hn
    have hmem : (name, n) ∈ d.members := by rw [hsplit]; simp
    rw [Descriptor.memberText_of_first hsplit hbefore]
    exact parse_of_ordinal? henum (Descriptor.ordinal?_of_mem hd hmem)
  unnamed n hn := by
    refine ⟨Descriptor.memberText_of_unnamed hn, fun hnot => ?_, fun hmem => ?_⟩
    · exact parse_of_ordinal?_eq_none henum (Descriptor.ordinal?_eq_none hnot)
    · obtain ⟨⟨name, k⟩, hk, hname⟩ := List.mem_map.mp hmem
      refine ⟨k, hn _ hk, parse_of_ordinal? henum (Descriptor.ordinal?_of_mem hd ?_)⟩
      rw [← hname]
      exact hk
  parsed text b := by
    rw [parse_eq_ok_iff henum]
    constructor
    · rintro ⟨n, hn, rfl⟩
      exact ⟨n, Descriptor.mem_of_ordinal? hn, rfl⟩
    · rintro ⟨n, hn, rfl⟩
      exact ⟨n, Descriptor.ordinal?_of_mem hd hn, rfl⟩
  refused _ hnot := parse_of_ordinal?_eq_none henum (Descriptor.ordinal?_eq_none hnot)
  text_parsed text b hb := by
    obtain ⟨n, hn, rfl⟩ := (parse_eq_ok_iff henum).mp hb
    obtain ⟨before, name, after, hsplit, hbefore⟩ :=
      Descriptor.exists_first ⟨_, Descriptor.mem_of_ordinal? hn, rfl⟩
    exact ⟨n, before, name, after, rfl, hsplit, hbefore,
      Descriptor.memberText_of_first hsplit hbefore⟩

/-- Two members share an ordinal, one is named like a number that no member has, and one has no
name. -/
theorem parse_text_shared :
    ∃ d : Descriptor, d.isEnum = true ∧ (d.members.map Prod.fst).Nodup ∧ Parses d ∧
      d.members = [("Red", 1), ("Crimson", 1), ("7", -2), ("", 3)] := by
  let d : Descriptor := .root 0 (.enumeration 0)
    ⟨"Paint", "Color", false, some [("Red", 1), ("Crimson", 1), ("7", -2), ("", 3)]⟩
  have hnames : (d.members.map Prod.fst).Nodup := by decide
  exact ⟨d, rfl, hnames, parse_text d rfl hnames, rfl⟩

end EnumValue

end CountedObjects
