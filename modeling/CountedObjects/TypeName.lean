/-! The split of a qualified path `a::b::Name<...>` into a namespace `a.b` and a name. -/
namespace CountedObjects.TypeName

/-- Cuts at the last `::`, which belongs to neither part. -/
def splitLast? : List Char → Option (List Char × List Char)
  | [] => none
  | c :: cs =>
    match splitLast? cs with
    | some (before, after) => some (c :: before, after)
    | none =>
      match c, cs with
      | ':', ':' :: after => some ([], after)
      | _, _ => none

/-- Writes a point for each `::`, from the left. -/
def dotted : List Char → List Char
  | ':' :: ':' :: cs => '.' :: dotted cs
  | c :: cs => c :: dotted cs
  | [] => []

/-- Only the part before the first `<` is a path; what follows stays with the name as it is. -/
def split (full : List Char) : List Char × List Char :=
  let path := full.takeWhile (· != '<')
  let arguments := full.dropWhile (· != '<')
  match splitLast? path with
  | some (before, after) => (dotted before, after ++ arguments)
  | none => ([], full)

end CountedObjects.TypeName
