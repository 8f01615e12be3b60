import DataExpr.Proofs.Query.RoundTrip
import DataExpr.Proofs.Text.Join
import DataExpr.Proofs.Value.Lookup

/-!
# Parameters appended to a URL

A URL takes in parameters by their parts: `appendParts` joins the parts and puts a separator in
front, which is `?` as long as the URL has none.  Once parts are there, so is the mark, and more
parts follow behind `&` (`appendParts_append`).  So it makes no difference whether mappings are
added one by one or all at once (`addEach_eq`), and a mapping without scalars leaves no
separator behind, wherever it comes (`Text.intercalate_flatten`).
-/

namespace DataExpr

namespace Query

/-! ## Parts behind a URL -/

/-- Appends parts to the query of a URL, which may have none yet. -/
def appendParts (url : String) (parts : List String) : String :=
  if parts = [] then url
  else url ++ (if url.toList.contains '?' then "&" else "?") ++ "&".intercalate parts

theorem appendParts_nil (url : String) : appendParts url [] = url :=
  rfl

theorem appendParts_of_contains {url : String} (h : url.toList.contains '?' = true)
    {parts : List String} (hparts : parts ≠ []) :
    appendParts url parts = url ++ "&" ++ "&".intercalate parts := by
  rw [appendParts, if_neg hparts, if_pos h]

theorem appendParts_of_not_mem {url : String} (h : '?' ∉ url.toList) {parts : List String}
    (hparts : parts ≠ []) : appendParts url parts = url ++ "?" ++ "&".intercalate parts := by
  rw [appendParts, if_neg hparts, if_neg (by simpa using h)]

/-- Behind parts, a URL has a question mark. -/
theorem contains_appendParts (url : String) {parts : List String} (hparts : parts ≠ []) :
    (appendParts url parts).toList.contains '?' = true := by
  by_cases hmark : '?' ∈ url.toList
  · rw [appendParts_of_contains (by simpa using hmark) hparts]
    simp [hmark]
  · rw [appendParts_of_not_mem hmark hparts]
    simp

/-- Parts that are appended to others follow them behind `&`. -/
theorem appendParts_append (url : String) (parts others : List String) :
    appendParts (appendParts url parts) others = appendParts url (parts ++ others) := by
  by_cases hparts : parts = []
  · rw [hparts, appendParts_nil, List.nil_append]
  by_cases hothers : others = []
  · rw [hothers, appendParts_nil, List.append_nil]
  have hall : parts ++ others ≠ [] := List.append_ne_nil_of_left_ne_nil hparts others
  rw [appendParts_of_contains (contains_appendParts url hparts) hothers, appendParts,
    if_neg hparts, appendParts, if_neg hall, String.intercalate_append_of_ne_nil hparts hothers]
  simp only [String.append_assoc]

/-! ## Parts of mappings -/

/-- A part has at least its equals sign. -/
theorem ne_empty_of_mem_parts {value : Value} :
    ∀ part ∈ parts none value, part ≠ "" := by
  intro part hpart hempty
  rw [parts_eq] at hpart
  obtain ⟨leaf, -, rfl⟩ := List.mem_map.1 hpart
  have hmem : '=' ∈ (partOfLeaf leaf).toList := by simp [partOfLeaf, partOf]
  rw [hempty] at hmem
  exact List.not_mem_nil hmem

/-- Nothing is written from a mapping just if it holds no scalar. -/
theorem parts_mapping_eq_nil_iff (entries : Entries Value) :
    parts none (.mapping entries) = [] ↔ ¬(Value.mapping entries).holdsScalar := by
  rw [parts_eq, List.map_eq_nil_iff, holdsScalar_iff, not_not, Value.leafPaths]
  rfl

theorem entryParts_append (outer? : Option String) (entries others : Entries Value) :
    entryParts outer? (entries ++ others) =
      entryParts outer? entries ++ entryParts outer? others := by
  induction entries with
  | nil => rw [List.nil_append, entryParts, List.nil_append]
  | cons entry entries ih => rw [List.cons_append, entryParts, entryParts, ih, List.append_assoc]

theorem parts_flatten (mappings : List (Entries Value)) :
    parts none (.mapping mappings.flatten) =
      (mappings.map fun entries => parts none (.mapping entries)).flatten := by
  induction mappings with
  | nil => rw [List.flatten_nil, parts, entryParts, List.map_nil, List.flatten_nil]
  | cons entries mappings ih =>
    rw [List.flatten_cons, parts, entryParts_append, List.map_cons, List.flatten_cons, ← ih]
    rfl

theorem parts_flatten_eq_nil_iff (mappings : List (Entries Value)) :
    parts none (.mapping mappings.flatten) = [] ↔
      ∀ entries ∈ mappings, ¬(Value.mapping entries).holdsScalar := by
  rw [parts_flatten, List.flatten_eq_nil_iff, List.forall_mem_map]
  simp only [parts_mapping_eq_nil_iff]

/-- What is written from entries behind one another is written mapping by mapping, and empty
texts are left out. -/
theorem encode_flatten (mappings : List (Entries Value)) :
    encode (.mapping mappings.flatten) none = "&".intercalate
      ((mappings.map fun entries => encode (.mapping entries) none).filter (· ≠ "")) := by
  have hne : ∀ group ∈ mappings.map fun entries => parts none (.mapping entries),
      ∀ text ∈ group, text ≠ "" :=
    List.forall_mem_map.2 fun entries _ => ne_empty_of_mem_parts
  rw [encode, parts_flatten, Text.intercalate_flatten hne, List.map_map]
  rfl

theorem addTo_eq (url : String) (params : Value) :
    addTo url params = appendParts url (parts none params) := by
  have hempty : (encode params none).isEmpty = true ↔ parts none params = [] := by
    rw [String.isEmpty_iff]
    exact Text.intercalate_eq_empty_iff ne_empty_of_mem_parts "&"
  simp only [addTo, appendParts, hempty]
  rfl

/-! ## One by one or all at once -/

/-- Adds mappings to a URL, one after the other. -/
def addEach (url : String) (mappings : List (Entries Value)) : String :=
  mappings.foldl (fun url entries => addTo url (.mapping entries)) url

theorem addEach_eq_appendParts (url : String) (mappings : List (Entries Value)) :
    addEach url mappings = appendParts url (parts none (.mapping mappings.flatten)) := by
  rw [parts_flatten, addEach]
  induction mappings generalizing url with
  | nil => rfl
  | cons entries mappings ih =>
    rw [List.foldl_cons, ih, addTo_eq, appendParts_append, List.map_cons, List.flatten_cons]

/-- Mappings without common keys can be put behind one another. -/
theorem unique_flatten {mappings : List (Entries Value)}
    (hunique : ∀ entries ∈ mappings, Entries.Unique entries)
    (hdisjoint : mappings.Pairwise fun entries others =>
      (Entries.keys entries).Disjoint (Entries.keys others)) :
    Entries.Unique mappings.flatten := by
  rw [Entries.Unique, Entries.keys, List.map_flatten, List.nodup_flatten]
  exact ⟨List.forall_mem_map.2 hunique, List.pairwise_map.2 hdisjoint⟩

/-- Adding mappings without common keys one by one is adding one mapping with all their entries.
A URL without a question mark stays as it is if they hold no scalar, at any depth.  Otherwise it
gets one, and behind it what is written from the mappings, joined by `&` and without those from
which nothing is written. -/
theorem addEach_eq {mappings : List (Entries Value)}
    (hunique : ∀ entries ∈ mappings, Entries.Unique entries)
    (hdisjoint : mappings.Pairwise fun entries others =>
      (Entries.keys entries).Disjoint (Entries.keys others)) (url : String) :
    addEach url mappings = addTo url (.ofPairs mappings.flatten) ∧
    ('?' ∉ url.toList →
      ((∀ entries ∈ mappings, ¬(Value.mapping entries).holdsScalar) →
        addEach url mappings = url) ∧
      ((∃ entries ∈ mappings, (Value.mapping entries).holdsScalar) →
        addEach url mappings =
          url ++ "?" ++ "&".intercalate
            ((mappings.map fun entries => encode (.mapping entries) none).filter (· ≠ "")) ∧
        (addEach url mappings).toList.count '?' = 1)) := by
  have hsteps := addEach_eq_appendParts url mappings
  refine ⟨?_, fun hmark => ⟨fun hnone => ?_, fun hsome => ?_⟩⟩
  · rw [hsteps, Value.ofPairs, Entries.ofPairs_of_unique (unique_flatten hunique hdisjoint),
      addTo_eq]
  · rw [hsteps, (parts_flatten_eq_nil_iff mappings).2 hnone, appendParts_nil]
  · have hparts : parts none (.mapping mappings.flatten) ≠ [] := by
      simpa [parts_flatten_eq_nil_iff] using hsome
    have hadded : addEach url mappings = url ++ "?" ++ encode (.mapping mappings.flatten) none := by
      rw [hsteps, appendParts_of_not_mem hmark hparts]
      rfl
    refine ⟨by rw [hadded, encode_flatten], ?_⟩
    have hquestion := question_not_mem_encode (.mapping mappings.flatten)
    rw [hadded, String.toList_append, String.toList_append, List.count_append, List.count_append,
      List.count_eq_zero_of_not_mem hmark, List.count_eq_zero_of_not_mem hquestion]
    rfl

/-- Mappings of which the first and the third have no scalars. -/
def sparseMappings : List (Entries Value) :=
  [[("a", .null), ("b", .sequence [])], [("q", .text "x y")], [("c", .mapping [])],
    [("d", .sequence [.null, .bool true])]]

theorem addEach_eq_sparseMappings :
    (∀ entries ∈ sparseMappings, Entries.Unique entries) ∧
      sparseMappings.Pairwise (fun entries others =>
        (Entries.keys entries).Disjoint (Entries.keys others)) ∧
      (∃ entries ∈ sparseMappings, (Value.mapping entries).holdsScalar) ∧
      addEach "/x" sparseMappings = addTo "/x" (.ofPairs sparseMappings.flatten) ∧
      addEach "/x" sparseMappings = "/x?q=x%20y&d[1]=true" := by
  have hunique : ∀ entries ∈ sparseMappings, Entries.Unique entries := by
    simp [sparseMappings, Entries.Unique, Entries.keys]
  have hdisjoint : sparseMappings.Pairwise fun entries others =>
      (Entries.keys entries).Disjoint (Entries.keys others) := by
    simp [sparseMappings, Entries.keys]
  have hscalar : ∃ entries ∈ sparseMappings, (Value.mapping entries).holdsScalar := by decide
  obtain ⟨hadd, hplain⟩ := addEach_eq hunique hdisjoint "/x"
  refine ⟨hunique, hdisjoint, hscalar, hadd, ?_⟩
  rw [((hplain (by decide)).2 hscalar).1]
  decide

end Query

end DataExpr
