import CountedObjects.Session.Probe

/-! Qualified names of types are split without loss. The last separator of the path is found in
front of the arguments, whatever these contain, so that different names have different full
names. -/
namespace CountedObjects

namespace TypeName

/-- A segment is not empty and has none of the characters that end one. -/
structure IsSegment (cs : List Char) : Prop where
  ne_nil : cs ≠ []
  plain : ∀ c ∈ cs, c ≠ ':' ∧ c ≠ '.' ∧ c ≠ '<'

instance (cs : List Char) : Decidable (IsSegment cs) :=
  decidable_of_iff (cs ≠ [] ∧ cs.all fun c => c ≠ ':' ∧ c ≠ '.' ∧ c ≠ '<') <| by
    simp only [List.all_eq_true, decide_eq_true_eq]
    exact ⟨fun h => ⟨h.1, h.2⟩, fun h => ⟨h.ne_nil, h.plain⟩⟩

/-- A path of at least one segment, and arguments that start with `<` unless there are none. -/
@[ext]
structure Qualified where
  segments : List String
  arguments : String
  ne_nil : segments ≠ []
  segment : ∀ s ∈ segments, IsSegment s.toList
  opens : arguments = "" ∨ ∃ cs, arguments.toList = '<' :: cs

namespace Qualified

def text (q : Qualified) : String := "::".intercalate q.segments ++ q.arguments

def last (q : Qualified) : String := q.segments.getLast q.ne_nil

end Qualified

variable {cs before after path : List Char} {c : Char} {segments : List (List Char)}

/-! The three searches. -/

theorem splitLast?_eq_none (h : ∀ c ∈ cs, c ≠ ':') (c : Char) : splitLast? (c :: cs) = none := by
  induction cs generalizing c with
  | nil =>
    unfold splitLast?
    simp [splitLast?]
  | cons d cs ih =>
    obtain ⟨hd, hcs⟩ := List.forall_mem_cons.mp h
    unfold splitLast?
    rw [ih hcs d]
    dsimp only
    split
    · next heq => exact absurd (List.head_eq_of_cons_eq heq) hd
    · rfl

/-- The last separator has none behind it. -/
theorem splitLast?_append (before : List Char) (h : ∀ c ∈ after, c ≠ ':') :
    splitLast? (before ++ ':' :: ':' :: after) = some (before, after) := by
  induction before with
  | nil =>
    rw [List.nil_append]
    unfold splitLast?
    rw [splitLast?_eq_none h]
    rfl
  | cons c before ih =>
    rw [List.cons_append]
    unfold splitLast?
    rw [ih]

theorem dotted_cons (h : c ≠ ':') (cs : List Char) : dotted (c :: cs) = c :: dotted cs := by
  rw [dotted]
  intro _ hc
  exact absurd hc h

theorem dotted_append (h : ∀ c ∈ cs, c ≠ ':') (rest : List Char) :
    dotted (cs ++ rest) = cs ++ dotted rest := by
  induction cs with
  | nil => rfl
  | cons c cs ih =>
    obtain ⟨hc, hcs⟩ := List.forall_mem_cons.mp h
    rw [List.cons_append, dotted_cons hc, ih hcs, List.cons_append]

/-- Each separator between segments becomes a point. -/
theorem dotted_intercalate (h : ∀ cs ∈ segments, IsSegment cs) :
    dotted ([':', ':'].intercalate segments) = ['.'].intercalate segments := by
  induction segments with
  | nil => rfl
  | cons cs segments ih =>
    obtain ⟨hcs, hsegments⟩ := List.forall_mem_cons.mp h
    have hcolon : ∀ c ∈ cs, c ≠ ':' := fun c hc => (hcs.plain c hc).1
    cases segments with
    | nil =>
      have hself := dotted_append hcolon []
      simpa [dotted] using hself
    | cons ds segments =>
      rw [List.intercalate_cons_cons, List.intercalate_cons_cons, ← ih hsegments,
        List.append_assoc, dotted_append hcolon, List.append_assoc]
      rfl

theorem mem_intercalate {sep : List Char} (h : c ∈ sep.intercalate segments) :
    c ∈ sep ∨ ∃ cs ∈ segments, c ∈ cs := by
  induction segments with
  | nil => cases h
  | cons cs segments ih =>
    cases segments with
    | nil =>
      rw [List.intercalate_singleton] at h
      exact .inr ⟨cs, List.mem_cons_self .., h⟩
    | cons ds segments =>
      rw [List.intercalate_cons_cons, List.mem_append, List.mem_append] at h
      rcases h with (h | h) | h
      · exact .inr ⟨cs, List.mem_cons_self .., h⟩
      · exact .inl h
      · refine (ih h).imp_right ?_
        rintro ⟨es, hes, hc⟩
        exact ⟨es, List.mem_cons_of_mem _ hes, hc⟩

theorem intercalate_ne_empty {sep : String} {names : List String} (hn : names ≠ [])
    (h : ∀ s ∈ names, s ≠ "") : sep.intercalate names ≠ "" := by
  obtain ⟨s, names, rfl⟩ := List.exists_cons_of_ne_nil hn
  have hs : s ≠ "" := h s (List.mem_cons_self ..)
  cases names with
  | nil => rwa [String.intercalate_singleton]
  | cons t names =>
    rw [String.intercalate_cons_cons, String.append_assoc]
    intro hempty
    exact hs (String.append_eq_empty_iff.mp hempty).1

/-! What a qualified name is split into. -/
namespace Qualified

variable {q r : Qualified}

/-- The segments as characters. -/
def chars (q : Qualified) : List (List Char) := q.segments.map String.toList

theorem isSegment (q : Qualified) : ∀ cs ∈ q.chars, IsSegment cs := by
  intro cs hcs
  obtain ⟨s, hs, rfl⟩ := List.mem_map.mp hcs
  exact q.segment s hs

theorem chars_ne_nil (q : Qualified) : q.chars ≠ [] := by
  simpa [chars] using q.ne_nil

theorem segments_eq (q : Qualified) : q.segments = q.segments.dropLast ++ [q.last] :=
  (List.dropLast_concat_getLast q.ne_nil).symm

theorem isSegment_outer (q : Qualified) : ∀ s ∈ q.segments.dropLast, IsSegment s.toList :=
  fun s hs => q.segment s ((List.dropLast_sublist q.segments).subset hs)

theorem isSegment_last (q : Qualified) : IsSegment q.last.toList :=
  q.segment _ (List.getLast_mem q.ne_nil)

theorem intercalate_segments (q : Qualified) (sep : String) (h : q.segments.dropLast ≠ []) :
    sep.intercalate q.segments = sep.intercalate q.segments.dropLast ++ sep ++ q.last := by
  have hlast := String.intercalate_append_of_ne_nil (s := sep) h (List.cons_ne_nil q.last [])
  rwa [← segments_eq, String.intercalate_singleton] at hlast

/-- The arguments are what comes from the first `<` on. -/
theorem takeWhile_path (q : Qualified) (sep : List Char) (hsep : '<' ∉ sep) :
    (sep.intercalate q.chars ++ q.arguments.toList).takeWhile (· != '<') =
      sep.intercalate q.chars ∧
    (sep.intercalate q.chars ++ q.arguments.toList).dropWhile (· != '<') =
      q.arguments.toList := by
  have hpath : ∀ c ∈ sep.intercalate q.chars, (c != '<') = true := by
    intro c hc
    rw [bne_iff_ne]
    rintro rfl
    rcases mem_intercalate hc with hm | ⟨cs, hcs, hm⟩
    · exact hsep hm
    · exact ((q.isSegment cs hcs).plain _ hm).2.2 rfl
  rw [List.takeWhile_append_of_pos hpath, List.dropWhile_append_of_pos hpath]
  rcases q.opens with harguments | ⟨cs, harguments⟩
  · simp [harguments]
  · simp [harguments]

theorem toList_text (q : Qualified) :
    q.text.toList = [':', ':'].intercalate q.chars ++ q.arguments.toList := by
  rw [text, String.toList_append, String.toList_intercalate]
  rfl

/-- The namespace is made of all segments but the last. -/
theorem split_text (q : Qualified) : split q.text.toList =
    ((".".intercalate q.segments.dropLast).toList, (q.last ++ q.arguments).toList) := by
  obtain ⟨hpath, harguments⟩ := q.takeWhile_path [':', ':'] (by decide)
  have hlast : ∀ c ∈ q.last.toList, c ≠ ':' := fun c hc => (q.isSegment_last.plain c hc).1
  unfold split
  rw [toList_text, hpath, harguments, String.toList_append]
  dsimp only
  by_cases hone : q.segments.dropLast = []
  · have hchars : q.chars = [q.last.toList] := by
      rw [chars, segments_eq, hone]
      rfl
    obtain ⟨c, cs, hcs⟩ := List.exists_cons_of_ne_nil q.isSegment_last.ne_nil
    have hnone : splitLast? q.last.toList = none := by
      rw [hcs]
      exact splitLast?_eq_none (fun d hd => hlast d (hcs ▸ List.mem_cons_of_mem c hd)) c
    rw [hchars, List.intercalate_singleton, hnone, hone]
    rfl
  · have hchars : [':', ':'].intercalate q.chars =
        [':', ':'].intercalate (q.segments.dropLast.map String.toList) ++
          ':' :: ':' :: q.last.toList := by
      have hlist := congrArg String.toList (q.intercalate_segments "::" hone)
      simpa [chars] using hlist
    have houter : ∀ cs ∈ q.segments.dropLast.map String.toList, IsSegment cs := by
      intro cs hcs
      obtain ⟨s, hs, rfl⟩ := List.mem_map.mp hcs
      exact q.isSegment_outer s hs
    rw [hchars, splitLast?_append _ hlast]
    dsimp only
    rw [dotted_intercalate houter, String.toList_intercalate]
    rfl

theorem ofTypeName_text (q : Qualified) :
    Draft.ofTypeName q.text = .plain (".".intercalate q.segments.dropLast)
      (q.last ++ q.arguments) := by
  rw [Draft.ofTypeName, split_text]
  dsimp only
  rw [String.ofList_toList, String.ofList_toList]

theorem fullName_ofTypeName (q : Qualified) :
    (Draft.ofTypeName q.text).fullName = ".".intercalate q.segments ++ q.arguments := by
  rw [ofTypeName_text, Draft.fullName, Draft.plain]
  dsimp only
  by_cases hone : q.segments.dropLast = []
  · have hsegments := q.segments_eq
    rw [hone, List.nil_append] at hsegments
    rw [hone, hsegments, String.intercalate_nil, String.intercalate_singleton]
    rfl
  · have hne : ".".intercalate q.segments.dropLast ≠ "" := by
      refine intercalate_ne_empty hone fun s hs hempty => ?_
      exact (q.isSegment_outer s hs).ne_nil (by rw [hempty]; rfl)
    rw [if_neg (mt String.isEmpty_iff.mp hne), q.intercalate_segments "." hone]
    simp only [String.append_assoc]

/-- The points of a full name separate its segments, as none of them contains one. -/
theorem eq_of_fullName_eq (h : (Draft.ofTypeName q.text).fullName =
    (Draft.ofTypeName r.text).fullName) : q = r := by
  have hpoint : ∀ q : Qualified, ∀ cs ∈ q.chars, '.' ∉ cs :=
    fun q cs hcs hm => ((q.isSegment cs hcs).plain _ hm).2.1 rfl
  have htoList : ∀ q : Qualified, (Draft.ofTypeName q.text).fullName.toList =
      ['.'].intercalate q.chars ++ q.arguments.toList := by
    intro q
    rw [fullName_ofTypeName, String.toList_append, String.toList_intercalate]
    rfl
  obtain ⟨hq, hq'⟩ := q.takeWhile_path ['.'] (by decide)
  obtain ⟨hr, hr'⟩ := r.takeWhile_path ['.'] (by decide)
  rw [← htoList, h, htoList] at hq hq'
  have hpath : ['.'].intercalate q.chars = ['.'].intercalate r.chars := hq.symm.trans hr
  have hchars : q.chars = r.chars := by
    rw [← List.splitOn_intercalate '.' (hpoint q) q.chars_ne_nil, hpath,
      List.splitOn_intercalate '.' (hpoint r) r.chars_ne_nil]
  ext1
  · exact (List.map_inj_right fun _ _ => String.toList_inj.mp).mp hchars
  · exact String.toList_inj.mp (hq'.symm.trans hr')

/-- The path is split at its last separator, and the arguments stay with the name as they are. The
full name has a point for each separator of the path. -/
structure SplitsAtLast (q : Qualified) : Prop where
  split : TypeName.split q.text.toList =
    ((".".intercalate q.segments.dropLast).toList, (q.last ++ q.arguments).toList)
  draft : (Probe.describe q.text).draft =
    .plain (".".intercalate q.segments.dropLast) (q.last ++ q.arguments)
  fullName : (Probe.describe q.text).fullName = ".".intercalate q.segments ++ q.arguments

theorem draft_describe (path : String) : (Probe.describe path).draft = .ofTypeName path := rfl

/-- All qualified names are split so, and no two of them have one full name. -/
theorem splitsAtLast_injective : (∀ q : Qualified, q.SplitsAtLast) ∧
    Function.Injective fun q : Qualified => (Probe.describe q.text).fullName := by
  constructor
  · intro q
    refine ⟨q.split_text, ?_, ?_⟩
    · rw [draft_describe, ofTypeName_text]
    · rw [Descriptor.fullName, draft_describe, fullName_ofTypeName]
  · intro q r h
    dsimp only at h
    rw [Descriptor.fullName, Descriptor.fullName, draft_describe, draft_describe] at h
    exact eq_of_fullName_eq h

/-- Separators and points within the arguments are left alone. -/
theorem splitsAtLast_nested : ∃ q : Qualified, q.text = "lib::map::Map<a::B<c.d>, e::F>" ∧
    TypeName.split q.text.toList = ("lib.map".toList, "Map<a::B<c.d>, e::F>".toList) ∧
    (Probe.describe q.text).fullName = "lib.map.Map<a::B<c.d>, e::F>" := by
  let q : Qualified :=
    ⟨["lib", "map", "Map"], "<a::B<c.d>, e::F>", by decide, by decide, .inr ⟨_, rfl⟩⟩
  obtain ⟨hsplit, -, hname⟩ := splitsAtLast_injective.1 q
  exact ⟨q, rfl, hsplit, hname⟩

end Qualified

end TypeName

end CountedObjects
