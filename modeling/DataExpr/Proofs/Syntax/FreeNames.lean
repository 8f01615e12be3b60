import DataExpr.Proofs.Syntax.Nodes
import Mathlib.Data.List.Basic

/-!
# The leftmost name of a tree

`Expr.firstFreeName?` finds the leftmost name that stands outside the arguments of calls
(`firstFreeName?_eq_some_iff`).

A position in a tree is the list of the turns that lead to it, each being the number of a
part (`NameAt`).  No part of a name is searched, so the lexicographic order of positions is
the order in which the names are written.
-/

namespace DataExpr

namespace Expr

/-- The parts of a node that are no arguments. -/
def outerParts : Expr → List Expr
  | .call .. => []
  | tree => tree.parts

/-- A name stands at a position outside the arguments of calls, and covers a piece of the
text. -/
inductive NameAt : Expr → List Nat → String → Span → Prop
  | own {tree : Expr} {name : String} (h : tree.ownName? = some name) :
      NameAt tree [] name tree.span
  | inside {tree part : Expr} {i : Nat} {path : List Nat} {name : String} {span : Span}
      (hpart : tree.outerParts[i]? = some part) (h : NameAt part path name span) :
      NameAt tree (i :: path) name span

/-- The name is the one furthest to the left of those outside the arguments of calls. -/
def LeftmostName (tree : Expr) (name : String) (span : Span) : Prop :=
  ∃ path, tree.NameAt path name span ∧
    ∀ other name' span', tree.NameAt other name' span' → other ≠ path →
      List.Lex (· < ·) path other

variable {tree part : Expr} {name name' : String} {span span' : Span} {path : List Nat}

theorem mem_parts_of_mem_outerParts (h : part ∈ tree.outerParts) : part ∈ tree.parts := by
  cases tree with
  | call => cases h
  | _ => exact h

theorem firstFreeName?_of_ownName? (h : tree.ownName? = some name) :
    tree.firstFreeName? = some (name, tree.span) := by
  cases tree with
  | name | call =>
    cases h
    rfl
  | _ => cases h

theorem ownName?_eq_none (h : tree.firstFreeName? = none) : tree.ownName? = none := by
  cases tree with
  | name | call => cases h
  | _ => rfl

/-- Without a name of its own, a node has the first name of its parts. -/
theorem firstFreeName?_eq_findSome? (h : tree.ownName? = none) :
    tree.firstFreeName? = tree.outerParts.findSome? firstFreeName? := by
  cases tree with
  | name | call => cases h
  | literal | undefined | this => rfl
  | member object | unary op object =>
    show object.firstFreeName? = [object].findSome? firstFreeName?
    rw [List.findSome?_cons, List.findSome?_nil]
    cases object.firstFreeName? <;> rfl
  | index first second | binary op first second | logical op first second =>
    show first.firstFreeName?.or second.firstFreeName? =
      [first, second].findSome? firstFreeName?
    rw [List.findSome?_cons, List.findSome?_cons, List.findSome?_nil]
    cases first.firstFreeName? <;> cases second.firstFreeName? <;> rfl

theorem NameAt.spells (h : tree.NameAt path name span) : tree.Spells name := by
  induction h with
  | own h => exact .root h
  | inside hpart _ ih =>
    exact ih.inside (mem_parts_of_mem_outerParts (List.mem_of_getElem? hpart))

/-- At a position stands at most one name. -/
theorem NameAt.unique (h : tree.NameAt path name span) (h' : tree.NameAt path name' span') :
    name = name' ∧ span = span' := by
  induction h with
  | own h =>
    cases h' with
    | own h' => exact ⟨Option.some.inj (h.symm.trans h'), rfl⟩
  | inside hpart _ ih =>
    cases h' with
    | inside hpart' h' =>
      obtain rfl := Option.some.inj (hpart.symm.trans hpart')
      exact ih h'

/-- The name of the root is to the left of all others. -/
theorem leftmostName_of_ownName? (h : tree.ownName? = some name) :
    tree.LeftmostName name tree.span := by
  refine ⟨[], .own h, fun other _ _ _ hne => ?_⟩
  cases other with
  | nil => exact absurd rfl hne
  | cons => exact .nil

/-- The leftmost name of a part is that of the tree, if the parts before it have none. -/
theorem LeftmostName.inside {before after : List Expr} (h : part.LeftmostName name span)
    (hown : tree.ownName? = none) (hparts : tree.outerParts = before ++ part :: after)
    (hbefore : ∀ earlier ∈ before, earlier.firstFreeName? = none) :
    tree.LeftmostName name span := by
  obtain ⟨path, hname, hleftmost⟩ := h
  have hposition : tree.outerParts[before.length]? = some part := by
    simp [hparts]
  refine ⟨before.length :: path, .inside hposition hname, ?_⟩
  intro other name' span' hother hne
  cases hother with
  | own hown' =>
    rw [hown] at hown'
    cases hown'
  | @inside _ part' i _ _ _ hpart' hother =>
    rcases Nat.lt_trichotomy before.length i with hlt | rfl | hgt
    · exact .rel hlt
    · obtain rfl := Option.some.inj (hposition.symm.trans hpart')
      exact .cons (hleftmost _ _ _ hother fun h => hne (congrArg _ h))
    · rw [hparts, List.getElem?_append_left hgt] at hpart'
      have hnone := hbefore part' (List.mem_of_getElem? hpart')
      exact absurd hother.spells ((firstFreeName?_eq_none_iff part').1 hnone name')

/-- The name that is found is the leftmost one. -/
theorem leftmostName_of_firstFreeName? (h : tree.firstFreeName? = some (name, span)) :
    tree.LeftmostName name span := by
  induction tree using induction_parts with
  | step tree ih =>
    cases hown : tree.ownName? with
    | some own =>
      rw [firstFreeName?_of_ownName? hown] at h
      cases h
      exact leftmostName_of_ownName? hown
    | none =>
      rw [firstFreeName?_eq_findSome? hown, List.findSome?_eq_some_iff] at h
      obtain ⟨before, part, after, hparts, hfree, hbefore⟩ := h
      have hmem : part ∈ tree.parts := by
        apply mem_parts_of_mem_outerParts
        simp [hparts]
      exact (ih part hmem hfree).inside hown hparts hbefore

/-- The first free name is the leftmost name outside the arguments of calls. -/
theorem firstFreeName?_eq_some_iff (tree : Expr) (name : String) (span : Span) :
    tree.firstFreeName? = some (name, span) ↔ tree.LeftmostName name span := by
  constructor
  · exact leftmostName_of_firstFreeName?
  · rintro ⟨path, hname, hleftmost⟩
    cases hfree : tree.firstFreeName? with
    | none => exact absurd hname.spells ((firstFreeName?_eq_none_iff tree).1 hfree name)
    | some found =>
      obtain ⟨path', hname', hleftmost'⟩ := leftmostName_of_firstFreeName? hfree
      obtain rfl : path = path' := by
        by_contra hne
        have hbefore := hleftmost _ _ _ hname' (Ne.symm hne)
        have hbehind := hleftmost' _ _ _ hname hne
        exact List.lex_asymm Nat.lt_asymm hbefore hbehind
      obtain ⟨rfl, rfl⟩ := hname.unique hname'
      rfl

end Expr

end DataExpr
