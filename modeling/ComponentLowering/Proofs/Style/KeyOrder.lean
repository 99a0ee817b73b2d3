/-
# The order of keys

The style sheets of a mapping are hoisted in the order of their keys.  Which key names a path that several
keys share, and which of two colliding candidates gets a number, depends on that order, but not on the one in
which the pairs were set: no key stands twice, so there is only one way to put them in order.  Where keys do
stand twice nothing is claimed; the pairs that are set one by one are not of this kind.
-/
import ComponentLowering.Proofs.Style.PlannedStyles

namespace ComponentLowering.Style

open ComponentLowering.Settings

variable {pairs other ordered : List (String × String)}

/-- Pairs without a repeated key have one order. -/
theorem eq_sortPairs_of_ordered (nodup : (pairs.map (·.1)).Nodup) (perm : ordered.Perm pairs)
    (sorted : ordered.Pairwise (·.1 ≤ ·.1)) : ordered = sortPairs pairs := by
  apply List.Perm.eq_of_pairwise ?_ sorted (sortPairs_ordered pairs)
  · exact perm.trans (sortPairs_perm pairs).symm
  · intro p q mem mem' le ge
    have inPairs : p ∈ pairs := perm.mem_iff.mp mem
    have inPairs' : q ∈ pairs := (sortPairs_perm pairs).mem_iff.mp mem'
    exact List.inj_on_of_nodup_map nodup inPairs inPairs' (String.le_antisymm le ge)

/-- Sorting forgets the order in which pairs stand. -/
theorem sortPairs_eq_of_perm (nodup : (pairs.map (·.1)).Nodup) (perm : pairs.Perm other) :
    sortPairs pairs = sortPairs other := by
  have nodup' : (other.map (·.1)).Nodup := (perm.map (·.1)).nodup_iff.mp nodup
  exact eq_sortPairs_of_ordered nodup' ((sortPairs_perm pairs).trans perm) (sortPairs_ordered pairs)

/-- The order in which the pairs of a mapping were set is of no account to what is planned for a class: the
statements, the assignment and the ledger are the same. -/
theorem plan_mapping_eq_of_perm (className : String) (convention : Convention) (l : Ledger)
    (nodup : (pairs.map (·.1)).Nodup) (perm : pairs.Perm other) :
    plan className (.mapping pairs) convention l = plan className (.mapping other) convention l := by
  have isEmpty : (Refs.mapping pairs).isEmpty = (Refs.mapping other).isEmpty := perm.isEmpty_eq
  have entries : (Refs.mapping pairs).entries = (Refs.mapping other).entries := by
    rw [Refs.entries, Refs.entries, sortPairs_eq_of_perm nodup perm]
  rw [plan, plan, isEmpty, entries]
  -- The value of a mapping is made of its bindings alone.
  rfl

/-- Four keys with three paths.  Two keys share a path, and the candidates of the other two are the same. -/
def entangled : List (String × String) :=
  [("md", "./s.css"), ("a.b", "x-y.css"), ("ios", "./s.css"), ("a-b", "x_y.css")]

/-- The key that comes first names the path that is shared, and the one that comes last among the colliding
ones gets the number, also when the pairs are set from the last to the first. -/
theorem entangled_plan_eq :
    (entangled.map (·.1)).Nodup ∧ entangled.Perm entangled.reverse ∧ entangled ≠ entangled.reverse ∧
    plan "CmpA" (.mapping entangled) .esm {} = plan "CmpA" (.mapping entangled.reverse) .esm {} ∧
    (plan "CmpA" (.mapping entangled.reverse) .esm {}).1.map (·.assignment) =
      some ("CmpA.style = \x7b \"a-b\": CMP_A_a_b__x_y_css, \"a.b\": CMP_A_a_b__x_y_css_1, " ++
        "ios: CMP_A_ios__s_css, md: CMP_A_ios__s_css \x7d;") := by
  have nodup : (entangled.map (·.1)).Nodup := by decide
  have perm : entangled.Perm entangled.reverse := entangled.reverse_perm.symm
  refine ⟨nodup, perm, by decide, plan_mapping_eq_of_perm "CmpA" .esm {} nodup perm, ?_⟩
  decide +kernel

end ComponentLowering.Style
