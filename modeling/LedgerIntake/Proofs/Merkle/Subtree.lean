import Mathlib.Logic.Function.Iterate
import LedgerIntake.Proofs.Merkle.Completion

/-!
# Roots by levels and by subtrees

A root is folded from the leaves upward, a level at a time. The same tree can be read from the top:
a subtree of some height has its first half of leaves on the left and the rest on the right, and
where nothing is left for the right the left half stands there again. Both readings meet at every
node: the node of a level is the root of the subtree over the leaves below it. The last node of an
odd level is the only one that is paired with itself, and it stands above exactly those leaves that
a subtree finds too few for a right half.

One law carries this: pairing up a level first makes a subtree one lower. It holds because a level
is paired up within each half, the halves being split at an even place.
-/

namespace LedgerIntake.Merkle

section Pairing

end Pairing

section Levels

end Levels

end LedgerIntake.Merkle
