import DataExpr.Proofs.Evaluation.Calls
import DataExpr.Proofs.Value.Lookup
import DataExpr.Query.Lookup
import Mathlib.Data.List.Induction

/-!
# Look-ups inside and outside of expressions

What is picked out of a query are the names that stand for something, each at its first
place, or else the failure of the first name that fails (`result_extractBy`).  One name
after the other is picked, and each adds its entry unless it has one (`present_concat`).

The helpers that look things up come to what the look-ups outside come to, or fail where
those fail, for texts without calls (`calls_mirror_lookups`).  They are one level deeper in
the evaluation and may have other helpers in scope, of which such texts take no notice.
-/

namespace DataExpr

namespace Query

/-! ## Picking names -/

section

variable (outcome : String → Except Error Operand)

/-- The failure of the first name that fails. -/
def firstFailure? (names : List String) : Option Error :=
  names.findSome? fun name =>
    match outcome name with
    | .ok _ => none
    | .error error => some error

/-- The entry of a name, if it stands for something. -/
def pair? (name : String) : Option (String × Value) :=
  match outcome name with
  | .ok (some value) => some (name, value)
  | _ => none

/-- The entries of names that stand for something, each at the first place of its name. -/
def present (names : List String) : Entries Value :=
  names.eraseDups.filterMap (pair? outcome)

variable {outcome}

theorem firstFailure?_congr {other : String → Except Error Operand} {names : List String}
    (h : ∀ name ∈ names, outcome name = other name) :
    firstFailure? outcome names = firstFailure? other names := by
  induction names with
  | nil => rfl
  | cons name names ih =>
    rw [List.forall_mem_cons] at h
    have hrest := ih h.2
    rw [firstFailure?] at hrest ⊢
    rw [List.findSome?_cons, h.1, hrest]
    rfl

theorem present_congr {other : String → Except Error Operand} {names : List String}
    (h : ∀ name ∈ names, outcome name = other name) :
    present outcome names = present other names := by
  apply List.filterMap_congr
  intro name hname
  rw [pair?, pair?, h name (List.mem_eraseDups.1 hname)]

theorem firstFailure?_concat (names : List String) (name : String) :
    firstFailure? outcome (names ++ [name]) =
      (firstFailure? outcome names).or
        (match outcome name with
        | .ok _ => none
        | .error error => some error) := by
  rw [firstFailure?, List.findSome?_append]
  cases hname : outcome name <;> simp [firstFailure?, hname]

theorem fst_of_pair? {name : String} {entry : String × Value}
    (h : pair? outcome name = some entry) : entry.1 = name := by
  unfold pair? at h
  split at h <;> cases h
  rfl

theorem get?_filterMap_pair? {names : List String} {name : String} {value : Value}
    (hmem : name ∈ names) (hvalue : outcome name = .ok (some value)) :
    Entries.get? (names.filterMap (pair? outcome)) name = some value := by
  induction names with
  | nil => cases hmem
  | cons first names ih =>
    by_cases hfirst : first = name
    · subst hfirst
      simp [pair?, hvalue]
    · have hrest := ih ((List.mem_cons.1 hmem).resolve_left (Ne.symm hfirst))
      cases hentry : pair? outcome first with
      | none => rwa [List.filterMap_cons_none hentry]
      | some entry =>
        rw [List.filterMap_cons_some hentry]
        show Entries.get? ((entry.1, entry.2) :: _) name = some value
        rwa [Entries.get?_cons, fst_of_pair? hentry, if_neg hfirst]

theorem not_mem_keys_present {names : List String} {name : String} (h : name ∉ names) :
    name ∉ Entries.keys (present outcome names) := by
  intro hmem
  obtain ⟨entry, hentry, rfl⟩ := List.mem_map.1 hmem
  obtain ⟨first, hfirst, hsome⟩ := List.mem_filterMap.1 hentry
  rw [fst_of_pair? hsome] at h
  exact h (List.mem_eraseDups.1 hfirst)

/-- A name adds its entry, in place of the one it may have already. -/
theorem present_concat (names : List String) (name : String) :
    present outcome (names ++ [name]) =
      match outcome name with
      | .ok (some value) => Entries.insert (present outcome names) name value
      | _ => present outcome names := by
  by_cases hmem : name ∈ names
  · have hsame : present outcome (names ++ [name]) = present outcome names := by
      rw [present, List.eraseDups_append]
      simp [List.removeAll, hmem, present]
    rw [hsame]
    split
    · rename_i value hvalue
      have hget := get?_filterMap_pair? (List.mem_eraseDups.2 hmem) hvalue
      exact (Entries.alter_of_get? hget rfl).symm
    · rfl
  · have hnew : present outcome (names ++ [name]) =
        present outcome names ++ [name].filterMap (pair? outcome) := by
      rw [present, List.eraseDups_append, List.filterMap_append]
      simp [List.removeAll, hmem, present, List.eraseDups_cons]
    rw [hnew]
    cases hvalue : outcome name with
    | error error => simp [pair?, hvalue]
    | ok operand =>
      cases operand with
      | none => simp [pair?, hvalue]
      | some value =>
        simp [pair?, hvalue, Entries.insert, Entries.alter_of_new _ (not_mem_keys_present hmem)]

end

/-- What one name adds, unless it fails. -/
theorem result_pick (resolve : String → Eval Operand) (picked : Entries Value) (name : String) :
    (pick resolve picked name).result =
      match (resolve name).result with
      | .ok (some value) => .ok (Entries.insert picked name value)
      | .ok none => .ok picked
      | .error error => .error error := by
  rw [pick, Eval.result_bind]
  rcases (resolve name).result with error | _ | value <;> rfl

/-- Names are picked one after the other, up to the first that fails. -/
theorem result_foldlM_pick (resolve : String → Eval Operand) (names : List String) :
    (names.foldlM (pick resolve) []).result =
      match firstFailure? (fun name => (resolve name).result) names with
      | some error => .error error
      | none => .ok (present (fun name => (resolve name).result) names) := by
  induction names using List.reverseRecOn with
  | nil => rfl
  | append_singleton names name ih =>
    rw [List.foldlM_append, Eval.result_bind, ih, present_concat,
      firstFailure?_concat]
    cases firstFailure? (fun name => (resolve name).result) names with
    | some error => rfl
    | none =>
      show (List.foldlM _ _ [name] : Eval _).result = _
      rw [List.foldlM_cons, Eval.result_bind, result_pick]
      rcases (resolve name).result with error | _ | value <;> rfl

/-- What is picked are the entries of the names, if none fails. -/
theorem result_extractBy (resolve : String → Eval Operand) (names : List String) (asText : Bool) :
    (extractBy resolve names asText).result =
      match firstFailure? (fun name => (resolve name).result) names with
      | some error => .error error
      | none =>
          .ok (if asText then
            .text (addTo "" (.mapping (present (fun name => (resolve name).result) names)))
          else .params (present (fun name => (resolve name).result) names)) := by
  rw [extractBy, Eval.result_bind, result_foldlM_pick]
  cases firstFailure? (fun name => (resolve name).result) names with
  | some error => rfl
  | none => cases asText <;> rfl

/-- Nothing but the results of the names matters. -/
theorem result_extractBy_congr {resolve other : String → Eval Operand} {names : List String}
    (h : ∀ name ∈ names, (resolve name).result = (other name).result) (asText : Bool) :
    (extractBy resolve names asText).result = (extractBy other names asText).result := by
  rw [result_extractBy, result_extractBy, firstFailure?_congr h, present_congr h]

/-! ## Look-ups outside -/

theorem result_lookup (query name : String) (fallback? : Option Value) :
    (lookup query name fallback?).result =
      ((evaluator query).evaluate name (decodeValue query).value fallback?).result := by
  rw [lookup, Eval.result_bind, Eval.result_ofLogged]
  rfl

/-- Names are picked out of a query by looking them up without a fallback. -/
theorem result_extract (query : String) (names : List String) (asText : Bool) :
    (extract query names asText).result =
      (extractBy (fun name => lookup query name none) names asText).result := by
  rw [extract, Eval.result_bind, Eval.result_ofLogged]
  exact result_extractBy_congr (fun name _ => (result_lookup query name none).symm) asText

/-- A text is all that an evaluation can blame. -/
theorem isMalformed_of_evaluate {ev : Evaluator} {source : String} {context : Value}
    {fallback? : Option Value} {error : Error}
    (h : (ev.evaluate source context fallback?).result = .error error) : error.isMalformed := by
  rw [Evaluator.result_evaluate] at h
  cases hprepare : Evaluator.prepare source context with
  | ok tree =>
    rw [hprepare] at h
    cases h
  | error fault =>
    rw [hprepare] at h
    cases h
    obtain ⟨_, _, _, _, rfl⟩ := Evaluator.exists_of_prepare_eq_error hprepare
    rfl

theorem isMalformed_of_extract {query : String} {names : List String} {asText : Bool}
    {error : Error} (h : (extract query names asText).result = .error error) :
    error.isMalformed := by
  rw [result_extract, result_extractBy] at h
  split at h <;> cases h
  rename_i hfailure
  obtain ⟨name, -, hname⟩ := List.exists_of_findSome?_eq_some hfailure
  split at hname <;> cases hname
  rename_i hresult
  exact isMalformed_of_evaluate ((result_lookup query name none).symm.trans hresult)

/-! ## Helpers and look-ups -/

/-- A call comes to what a look-up comes to.  Where the look-up fails on a text, the call
fails with that as the message of the helper. -/
def Mirrors (helper : String) (call lookup : Except Error Operand) : Prop :=
  (∀ operand, lookup = .ok operand → call = .ok operand) ∧
    ∀ error, lookup = .error error →
      error.isMalformed ∧ ∃ origin?, call = .error ⟨.helperFailed helper error.message, origin?⟩

theorem mirrors_mapError {helper : String} {lookup : Except Error Operand}
    (h : ∀ error, lookup = .error error → error.isMalformed) :
    Mirrors helper (lookup.mapError (·.inHelper helper)) lookup := by
  constructor
  · intro operand hlookup
    rw [hlookup]
    rfl
  · intro error hlookup
    have hmalformed := h error hlookup
    refine ⟨hmalformed, some ((error.origin?.getD {}).addFrame helper), ?_⟩
    obtain ⟨cause, origin?⟩ := error
    cases cause <;> cases hmalformed
    rw [hlookup]
    rfl

variable {query : String}

/-- In a helper of an outermost call, a text without calls comes to what it comes to
outside. -/
theorem result_callAt_evaluate (name : String) {source : String} (hsource : CallFreeText source)
    (context : Value) (fallback? : Option Value) :
    (((evaluator query).callAt 256 name).evaluate source context fallback?).result =
      ((evaluator query).evaluate source context fallback?).result :=
  Evaluator.result_evaluateBy_of_callFree _ _ hsource rfl (Nat.le_refl 256) (Nat.le_succ 256) _ _

theorem result_extractQueryParams {items values : List Value}
    (hitems : values[0]? = some (.sequence items))
    (hnames : ∀ item ∈ items, CallFreeText item.display) :
    (extractQueryParams query values
        ((evaluator query).callAt 256 "extractQueryParams")).result =
      (extract query (items.map Value.display) ((values[1]?).all Value.isTruthy)).result.map
        fun extract => some extract.toValue := by
  have hextract :
      (extractBy
        (fun name => ((evaluator query).callAt 256 "extractQueryParams").evaluate name
          (decodeValue query).value none)
        (items.map Value.display) ((values[1]?).all Value.isTruthy)).result =
      (extract query (items.map Value.display) ((values[1]?).all Value.isTruthy)).result := by
    rw [extract, Eval.result_bind, Eval.result_ofLogged]
    apply result_extractBy_congr
    intro name hname
    obtain ⟨item, hitem, rfl⟩ := List.mem_map.1 hname
    exact result_callAt_evaluate _ (hnames item hitem) _ _
  rw [extractQueryParams, List.head?_eq_getElem?, hitems, ← hextract]
  simp only [Eval.result_bind, Eval.result_ofLogged]
  show (extractBy _ (items.map Value.display) _).result >>= _ = _
  cases (extractBy _ (items.map Value.display) _).result <;> rfl

theorem result_getQueryParam {name : Value} {values : List Value}
    (hvalue : values[0]? = some name) (hname : CallFreeText name.display) :
    (getQueryParam query values ((evaluator query).callAt 256 "getQueryParam")).result =
      (lookup query name.display values[1]?).result := by
  rw [getQueryParam, textArgument, hvalue, result_lookup,
    ← result_callAt_evaluate "getQueryParam" hname]
  simp only [Eval.result_bind, Eval.result_ofLogged]
  rfl

theorem result_getObjectValue {values : List Value}
    (hpath : CallFreeText (Operand.toText values[0]?)) :
    (Registry.getObjectValue values ((evaluator query).callAt 256 "getObjectValue")).result =
      (evaluate (Operand.toText values[0]?) (values[1]?.getD .null) values[2]?).result := by
  rw [Registry.getObjectValue, List.head?_eq_getElem?]
  exact Evaluator.result_evaluateBy_of_callFree (evaluator query) {} hpath rfl
    (Nat.le_refl 256) (Nat.le_succ 256) _ _

theorem mirrors_call {context : Value} {arguments : List Expr} {values : List Value}
    (hvalues : (evaluator query).Gives context arguments values) {name : String}
    (hunbound : ((evaluator query).scope context).get? name = none) {helper : Helper}
    (hget : (helpers query).get? name = some helper) {lookup : Except Error Operand}
    (hsame : (helper values ((evaluator query).callAt 256 name)).result = lookup)
    (hmalformed : ∀ error, lookup = .error error → error.isMalformed) (span : Span) :
    Mirrors name ((evaluator query).evaluateTree (.call name arguments span) context).result
      lookup := by
  subst hsame
  rw [Evaluator.result_evaluateTree_call _ span hunbound hget hvalues]
  exact mirrors_mapError hmalformed

/-- What is picked out of a query is the entry of each name that a look-up without a
fallback finds something for, at the first place of the name, or else the failure of the
first name whose look-up fails.

In an outermost call with names that are texts without calls, the helpers of the query come
to what the look-ups outside come to, and fail where those fail. -/
theorem calls_mirror_lookups (query : String) {context : Value} {arguments : List Expr}
    {values : List Value} (hvalues : (evaluator query).Gives context arguments values)
    (span : Span) :
    (∀ names asText,
      (extract query names asText).result =
        match firstFailure? (fun name => (lookup query name none).result) names with
        | some error => .error error
        | none =>
            let entries := present (fun name => (lookup query name none).result) names
            .ok (if asText then .text (addTo "" (.mapping entries)) else .params entries)) ∧
    (∀ items, values[0]? = some (.sequence items) →
      (∀ item ∈ items, CallFreeText item.display) →
      ((evaluator query).scope context).get? "extractQueryParams" = none →
        Mirrors "extractQueryParams"
          ((evaluator query).evaluateTree
            (.call "extractQueryParams" arguments span) context).result
          ((extract query (items.map Value.display) ((values[1]?).all Value.isTruthy)).result.map
            fun extract => some extract.toValue)) ∧
    (∀ name, values[0]? = some name → CallFreeText name.display →
      ((evaluator query).scope context).get? "getQueryParam" = none →
        Mirrors "getQueryParam"
          ((evaluator query).evaluateTree (.call "getQueryParam" arguments span) context).result
          (lookup query name.display values[1]?).result) ∧
    (CallFreeText (Operand.toText values[0]?) →
      ((evaluator query).scope context).get? "getObjectValue" = none →
        Mirrors "getObjectValue"
          ((evaluator query).evaluateTree (.call "getObjectValue" arguments span) context).result
          (evaluate (Operand.toText values[0]?) (values[1]?.getD .null) values[2]?).result) := by
  refine ⟨fun names asText => ?_, fun items hitems hnames hunbound => ?_,
    fun name hvalue hname hunbound => ?_, fun hpath hunbound => ?_⟩
  · rw [result_extract, result_extractBy]
  · refine mirrors_call hvalues hunbound rfl (result_extractQueryParams hitems hnames) ?_ span
    intro error herror
    cases hextract : (extract query (items.map Value.display)
        ((values[1]?).all Value.isTruthy)).result with
    | ok extract =>
      rw [hextract] at herror
      cases herror
    | error fault =>
      rw [hextract] at herror
      cases herror
      exact isMalformed_of_extract hextract
  · refine mirrors_call hvalues hunbound rfl (result_getQueryParam hvalue hname) ?_ span
    intro error herror
    rw [result_lookup] at herror
    exact isMalformed_of_evaluate herror
  · refine mirrors_call hvalues hunbound rfl (result_getObjectValue hpath) ?_ span
    intro error herror
    exact isMalformed_of_evaluate herror

/-- Names to pick, of which one comes twice and one stands for nothing. -/
def pickedNames : Value :=
  .sequence [.text "b", .text "a.c", .text "b", .text "z"]

/-- The call picks each name once.  The other two calls have the arguments `'b'` and null,
against which the name `b` cannot be resolved. -/
theorem calls_mirror_lookups_pickedNames :
    ((evaluator "a[c]=x&b=y").Gives (.mapping [("names", pickedNames)])
        [.name "names" {}, .literal (.bool false) {}] [pickedNames, .bool false] ∧
      (evaluator "a[c]=x&b=y").Gives .null
        [.literal (.text "b") {}, .literal .null {}] [.text "b", .null] ∧
      ∀ name ∈ ["b", "a.c", "b", "z"], CallFreeText name) ∧
      (extract "a[c]=x&b=y" ["b", "a.c", "b", "z"] false).result matches
        .ok (.params [("b", .text "y"), ("a.c", .text "x")]) ∧
      Mirrors "extractQueryParams"
        ((evaluator "a[c]=x&b=y").evaluateTree
          (.call "extractQueryParams" [.name "names" {}, .literal (.bool false) {}] {})
          (.mapping [("names", pickedNames)])).result
        ((extract "a[c]=x&b=y" ["b", "a.c", "b", "z"] false).result.map
          fun extract => some extract.toValue) ∧
      Mirrors "getQueryParam"
        ((evaluator "a[c]=x&b=y").evaluateTree
          (.call "getQueryParam" [.literal (.text "b") {}, .literal .null {}] {}) .null).result
        (lookup "a[c]=x&b=y" "b" (some .null)).result ∧
      Mirrors "getObjectValue"
        ((evaluator "a[c]=x&b=y").evaluateTree
          (.call "getObjectValue" [.literal (.text "b") {}, .literal .null {}] {}) .null).result
        (evaluate "b" .null none).result := by
  have hnames : (evaluator "a[c]=x&b=y").Gives (.mapping [("names", pickedNames)])
      [.name "names" {}, .literal (.bool false) {}] [pickedNames, .bool false] :=
    .cons rfl (.cons rfl .nil)
  have hname : (evaluator "a[c]=x&b=y").Gives .null
      [.literal (.text "b") {}, .literal .null {}] [.text "b", .null] :=
    .cons rfl (.cons rfl .nil)
  have hfree : ∀ name ∈ ["b", "a.c", "b", "z"], CallFreeText name := by decide +kernel
  have hpicked : ∀ item ∈ [Value.text "b", .text "a.c", .text "b", .text "z"],
      CallFreeText item.display := by
    decide +kernel
  obtain ⟨-, hextract, -, -⟩ := calls_mirror_lookups "a[c]=x&b=y" hnames {}
  obtain ⟨-, -, hparam, hobject⟩ := calls_mirror_lookups "a[c]=x&b=y" hname {}
  have hb : CallFreeText "b" := hfree "b" List.mem_cons_self
  have hcall := hextract _ rfl hpicked rfl
  exact ⟨⟨hnames, hname, hfree⟩, by decide +kernel, hcall,
    hparam (.text "b") rfl hb rfl, hobject hb rfl⟩

end Query

end DataExpr
