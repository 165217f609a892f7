import DemoScaffold.Proofs.Text.Encoding
import DemoScaffold.Text.Order
import Mathlib.Data.List.Lex

/-!
# The order of texts is linear

Texts with the same bytes are equal, so of two texts that differ one comes before the other one.
-/

namespace DemoScaffold.Text

variable {s t u : String}

theorem byteKey_injective (h : byteKey s = byteKey t) : s = t := by
  have hbytes : Utf8.encode s.toList = Utf8.encode t.toList :=
    List.map_injective_iff.mpr (fun _ _ => UInt8.toNat_inj.mp) h
  have hdecoded := congrArg Utf8.decode? hbytes
  rw [Utf8.decode?_encode, Utf8.decode?_encode, Option.some.injEq] at hdecoded
  exact String.toList_inj.mp hdecoded

theorem before_iff : before s t = true ↔ byteKey s < byteKey t := by
  rw [before, decide_eq_true_iff]

theorem not_before_self (s : String) : ¬ before s s = true := by
  rw [before_iff]
  exact lt_irrefl _

theorem before_trans (h : before s t = true) (h' : before t u = true) : before s u = true :=
  before_iff.mpr ((before_iff.mp h).trans (before_iff.mp h'))

theorem before_of_not_before (hne : s ≠ t) (h : ¬ before s t = true) : before t s = true := by
  rw [before_iff] at h ⊢
  exact lt_of_le_of_ne (not_lt.mp h) fun heq => hne (byteKey_injective heq).symm

end DemoScaffold.Text
