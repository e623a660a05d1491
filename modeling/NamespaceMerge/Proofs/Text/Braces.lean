import NamespaceMerge.Text.Basic

/-! Braces that are opened and closed in a text. Where a balanced text is followed by a closing
brace, the text is all there is up to the brace that closes what was opened before it
(`Balanced.eq_of_append_cons`). -/

namespace NamespaceMerge.Text

/-- How many braces are open behind a text when `depth` were open before it; nothing if one is
closed that was not open. -/
def depthAfter : Nat → Text → Option Nat
  | depth, [] => some depth
  | depth, c :: text =>
    if c = '\x7b' then depthAfter (depth + 1) text
    else if c = '\x7d' then
      match depth with
      | 0 => none
      | depth + 1 => depthAfter depth text
    else depthAfter depth text

def Balanced (text : Text) : Prop := depthAfter 0 text = some 0

instance (text : Text) : Decidable (Balanced text) := inferInstanceAs (Decidable (_ = _))

theorem depthAfter_append (depth : Nat) (a b : Text) :
    depthAfter depth (a ++ b) = (depthAfter depth a).bind fun d => depthAfter d b := by
  fun_induction depthAfter depth a with
  | case1 => rfl
  | case2 depth text ih => simpa [depthAfter] using ih
  | case3 text => simp [depthAfter]
  | case4 text _ depth ih => simpa [depthAfter] using ih
  | case5 depth c text hopen hclose ih => simpa [depthAfter, hopen, hclose] using ih

theorem Balanced.append {a b : Text} (ha : Balanced a) (hb : Balanced b) : Balanced (a ++ b) := by
  rw [Balanced, depthAfter_append, ha, Option.bind_some, hb]

/-- Characters that are no braces do not count. -/
theorem depthAfter_filter {p : Char → Bool} (hopen : p '\x7b' = true) (hclose : p '\x7d' = true)
    (depth : Nat) (text : Text) : depthAfter depth (text.filter p) = depthAfter depth text := by
  fun_induction depthAfter depth text with
  | case1 => rfl
  | case2 depth text ih => simpa [hopen, depthAfter] using ih
  | case3 text => simp [hclose, depthAfter]
  | case4 text _ depth ih => simpa [hclose, depthAfter] using ih
  | case5 depth c text hopen' hclose' ih =>
    rw [List.filter_cons]
    split
    · simpa [depthAfter, hopen', hclose'] using ih
    · exact ih

private theorem not_balanced_append_cons {a : Text} (h : Balanced a) (b : Text) :
    ¬ Balanced (a ++ '\x7d' :: b) := by
  rw [Balanced, depthAfter_append, h]
  simp [depthAfter]

theorem Balanced.eq_of_append_cons {a b x y : Text} (ha : Balanced a) (hb : Balanced b)
    (h : a ++ '\x7d' :: x = b ++ '\x7d' :: y) : a = b := by
  rw [List.append_eq_append_iff] at h
  rcases h with ⟨rest, rfl, h⟩ | ⟨rest, rfl, h⟩
  · cases rest with
    | nil => rw [List.append_nil]
    | cons c rest =>
      cases h
      exact (not_balanced_append_cons ha rest hb).elim
  · cases rest with
    | nil => rw [List.append_nil]
    | cons c rest =>
      cases h
      exact (not_balanced_append_cons hb rest ha).elim

end NamespaceMerge.Text
