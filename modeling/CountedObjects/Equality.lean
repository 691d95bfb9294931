import CountedObjects.Shape

/-! Equality of objects. Each kind of object decides for itself what it is equal to. -/
namespace CountedObjects.Store

mutual

/-- Equality of handles. Null equals only null; else the object on the left decides. -/
def equals (s : Store) (a b : Handle) : Bool :=
  match a with
  | .null => b.isNull
  | a => s.objectEquals a b
termination_by (a.rank, 1)

/-- Whether an object takes another one for equal: by value if it has one, else if it is the same.
A handle that points to nothing is equal to nothing here. -/
def objectEquals (s : Store) (a b : Handle) : Bool :=
  match a with
  | .null => false
  | .type d =>
    match b with
    | .type e => d.id == e.id
    | _ => false
  | .object id =>
    match s.body? (.object id) with
    | none => false
    | some (.boxed v) =>
      match s.body? b with
      | some (.boxed w) => v.same w
      | _ => false
    | some (.text x) =>
      match s.body? b with
      | some (.text y) => x == y
      | _ => false
    | some (.enumValue d m) =>
      match s.body? b with
      | some (.enumValue e n) => d == e && m == n
      | _ => false
    | some (.pair k v) =>
      match s.body? b with
      | some (.pair l w) =>
        if k.rank ≤ id ∧ v.rank ≤ id then s.equals k l && s.equals v w else false
      | _ => false
    | some _ => b == .object id
termination_by (a.rank, 0)
decreasing_by all_goals simp only [Prod.lex_def, Handle.rank] at *; omega

end

end CountedObjects.Store
