import Mathlib.Data.List.Nodup
import NamespaceMerge.Json.Basic

/-! Members of an object and their keys. Setting a member that is there changes its value only, and
a new one comes last; so members made one by one have distinct keys, and members with distinct keys
are made of themselves. -/

namespace NamespaceMerge.Json.Members

variable {members : Members} {key : Utf16}

theorem set_of_notMem (h : key ∉ members.keys) (value : Json) :
    members.set key value = members ++ [(key, value)] := by
  induction members with
  | nil => rfl
  | cons member members ih =>
    rw [keys, List.map_cons, List.mem_cons, not_or] at h
    rw [set, if_neg (Ne.symm h.1), ih h.2, List.cons_append]

theorem keys_set_of_mem (h : key ∈ members.keys) (value : Json) :
    (members.set key value).keys = members.keys := by
  induction members with
  | nil => cases h
  | cons member members ih =>
    obtain ⟨k, v⟩ := member
    rw [set]
    split
    case isTrue => rfl
    case isFalse hne =>
      have hmem : key ∈ keys members := (List.mem_cons.mp h).resolve_left (Ne.symm hne)
      exact congrArg (k :: ·) (ih hmem)

theorem keys_append (a b : Members) : keys (a ++ b) = keys a ++ keys b := List.map_append

theorem nodup_keys_set (h : members.keys.Nodup) (key : Utf16) (value : Json) :
    (members.set key value).keys.Nodup := by
  by_cases hmem : key ∈ members.keys
  · rwa [keys_set_of_mem hmem]
  · rw [set_of_notMem hmem, keys_append]
    refine List.nodup_append.mpr ⟨h, List.nodup_singleton key, fun a ha b hb => ?_⟩
    rw [List.mem_singleton.mp hb]
    rintro rfl
    exact hmem ha

/-- Setting a member brings in no value but the one that is set. -/
theorem mem_set {member : Utf16 × Json} {value : Json} (h : member ∈ members.set key value) :
    member ∈ members ∨ member.2 = value := by
  induction members with
  | nil => exact .inr (congrArg Prod.snd (List.mem_singleton.mp h))
  | cons first members ih =>
    obtain ⟨k, v⟩ := first
    rw [set] at h
    split at h
    · rcases List.mem_cons.mp h with rfl | h
      · exact .inr rfl
      · exact .inl (List.mem_cons_of_mem _ h)
    · rcases List.mem_cons.mp h with rfl | h
      · exact .inl List.mem_cons_self
      · exact (ih h).imp_left (List.mem_cons_of_mem _)

theorem erase_concat (h : key ∉ members.keys) (value : Json) :
    Members.erase (members ++ [(key, value)]) key = members := by
  have hkeep : ∀ member ∈ members, decide (member.1 ≠ key) = true := by
    intro member hmember
    rw [decide_eq_true_eq]
    rintro rfl
    exact h (List.mem_map_of_mem hmember)
  rw [erase, List.filter_append, List.filter_eq_self.mpr hkeep,
    List.filter_cons_of_neg (by simp), List.filter_nil, List.append_nil]

/-- The value that is found is the value of a member. -/
theorem mem_of_get?_eq_some {value : Json} (h : members.get? key = some value) :
    (key, value) ∈ members := by
  induction members with
  | nil => cases h
  | cons member members ih =>
    obtain ⟨k, v⟩ := member
    rw [get?, List.lookup_cons] at h
    split at h
    case h_1 heq =>
      rw [beq_iff_eq] at heq
      cases h
      rw [heq]
      exact List.mem_cons_self
    case h_2 => exact List.mem_cons_of_mem _ (ih h)

theorem get?_erase_self (members : Members) (key : Utf16) :
    (members.erase key).get? key = none := by
  cases h : (members.erase key).get? key with
  | none => rfl
  | some value =>
    exact absurd rfl (of_decide_eq_true (List.mem_filter.mp (mem_of_get?_eq_some h)).2)

theorem get?_erase_of_ne {other : Utf16} (h : other ≠ key) (members : Members) :
    (members.erase key).get? other = members.get? other := by
  induction members with
  | nil => rfl
  | cons member members ih =>
    obtain ⟨k, v⟩ := member
    by_cases hk : k = key
    · subst hk
      have herase : Members.erase ((k, v) :: members) k = Members.erase members k :=
        List.filter_cons_of_neg (by simp)
      rw [herase, ih, get?, get?, List.lookup_cons, beq_eq_false_iff_ne.mpr h]
    · have herase : Members.erase ((k, v) :: members) key = (k, v) :: Members.erase members key :=
        List.filter_cons_of_pos (by simpa using hk)
      rw [herase, get?, get?, List.lookup_cons, List.lookup_cons]
      split
      · rfl
      · exact ih

/-! ### Members made one by one -/

theorem ofList_eq (pairs : Members) :
    ofList pairs = pairs.foldl (fun m pair => Members.set m pair.1 pair.2) [] :=
  rfl

/-- Members with distinct keys are kept as they are. -/
theorem ofList_of_nodup (h : members.keys.Nodup) : ofList members = members := by
  have hfold : ∀ (pairs seen : Members), (keys (seen ++ pairs)).Nodup →
      pairs.foldl (fun m pair => Members.set m pair.1 pair.2) seen = seen ++ pairs := by
    intro pairs
    induction pairs with
    | nil => simp
    | cons pair pairs ih =>
      intro seen hnodup
      obtain ⟨k, v⟩ := pair
      have hnew : k ∉ seen.keys := by
        rw [keys_append] at hnodup
        exact fun hmem => (List.nodup_append.mp hnodup).2.2 _ hmem _ List.mem_cons_self rfl
      have hset : seen.set k v = seen ++ [(k, v)] := set_of_notMem hnew v
      simp only [List.foldl_cons, hset]
      rw [ih _ (by simpa using hnodup), List.append_assoc, List.singleton_append]
  rw [ofList_eq]
  exact hfold members [] h

/-- Setting members of other keys leaves a value as it is. -/
theorem get?_foldl_set_of_notMem {pairs : Members} (h : key ∉ pairs.keys)
    (value : Utf16 × Json → Json) (members : Members) :
    Members.get? (pairs.foldl (fun m pair => m.set pair.1 (value pair)) members) key =
      members.get? key := by
  induction pairs generalizing members with
  | nil => rfl
  | cons pair pairs ih =>
    rw [keys, List.map_cons, List.mem_cons, not_or] at h
    rw [List.foldl_cons, ih h.2, get?_set_of_ne _ _ h.1]

theorem get?_foldl_set_of_mem {pairs : Members} (hnodup : pairs.keys.Nodup) {pair : Utf16 × Json}
    (h : pair ∈ pairs) (value : Utf16 × Json → Json) (members : Members) :
    Members.get? (pairs.foldl (fun m pair => m.set pair.1 (value pair)) members) pair.1 =
      some (value pair) := by
  induction pairs generalizing members with
  | nil => cases h
  | cons first pairs ih =>
    rw [keys, List.map_cons, List.nodup_cons] at hnodup
    rw [List.foldl_cons]
    rcases List.mem_cons.mp h with rfl | h
    · rw [get?_foldl_set_of_notMem hnodup.1, get?_set_self]
    · exact ih hnodup.2 h _

theorem nodup_keys_ofList (pairs : Members) : (ofList pairs).keys.Nodup := by
  have hfold : ∀ seen : Members, seen.keys.Nodup →
      (keys (pairs.foldl (fun m pair => Members.set m pair.1 pair.2) seen)).Nodup := by
    induction pairs with
    | nil => exact fun _ h => h
    | cons pair pairs ih => exact fun seen h => ih _ (nodup_keys_set h pair.1 pair.2)
  rw [ofList_eq]
  exact hfold [] List.nodup_nil

theorem exists_of_mem_ofList {pairs : Members} {member : Utf16 × Json}
    (h : member ∈ ofList pairs) : ∃ pair ∈ pairs, pair.2 = member.2 := by
  rw [ofList_eq] at h
  have hfold : ∀ seen : Members,
      member ∈ pairs.foldl (fun m pair => Members.set m pair.1 pair.2) seen →
      member ∈ seen ∨ ∃ pair ∈ pairs, pair.2 = member.2 := by
    clear h
    induction pairs with
    | nil => exact fun _ h => .inl h
    | cons pair pairs ih =>
      intro seen h
      rcases ih _ h with h | ⟨found, hfound, heq⟩
      · exact (mem_set h).imp_right fun heq => ⟨pair, List.mem_cons_self, heq.symm⟩
      · exact .inr ⟨found, List.mem_cons_of_mem _ hfound, heq⟩
  exact (hfold [] h).resolve_left List.not_mem_nil

end NamespaceMerge.Json.Members
