import NamespaceMerge.Proofs.Declaration.Arrangement
import NamespaceMerge.Proofs.Number.Decimal
import NamespaceMerge.Proofs.Text.Caseless

/-! What is written of an organized text. Placing pieces one after the other gathers the bodies of
a name where the name first appears, and text from between blocks stays a group of its own, so the
merged text can be read off the pieces (`contents_merge?`). -/

namespace NamespaceMerge.Declaration

/-! ### Keys of kept text -/

/-- The key of the kept text with number `n`. -/
def extraKey (n : Nat) : Text := additionalName ++ Decimal.digits n

theorem extraKey_inj {m n : Nat} (h : extraKey m = extraKey n) : m = n := by
  have := congrArg Decimal.value (List.append_cancel_left h)
  rwa [Decimal.value_digits, Decimal.value_digits] at this

theorem isAdditional_extraKey (n : Nat) : isAdditional (extraKey n) = true := by
  have hdrop : Text.dropCaseless? (Text.lower additionalName) (extraKey n) =
      some (Decimal.digits n) :=
    Text.dropCaseless?_eq_some_iff.mpr ⟨additionalName, Text.spells_lower _, rfl⟩
  rw [isAdditional, hdrop]
  simp only [Bool.and_eq_true, Bool.not_eq_true', List.isEmpty_eq_false_iff, List.all_eq_true]
  exact ⟨Decimal.digits_ne_nil n, fun c => Decimal.isDigit_of_mem_digits⟩

theorem extraKey_ne {name : Text} (h : isAdditional name = false) (n : Nat) :
    extraKey n ≠ name := by
  rintro rfl
  rw [isAdditional_extraKey] at h
  cases h

/-! ### Groups in the order in which their keys appear -/

/-- The pieces with the keys of their groups. -/
def keyed (extras : Nat) : List Piece → List (Text × Text)
  | [] => []
  | .kept text :: rest => (extraKey extras, text) :: keyed (extras + 1) rest
  | .block name body :: rest => (name, body) :: keyed extras rest

def bodiesUnder (key : Text) (pairs : List (Text × Text)) : List Text :=
  (pairs.filter (·.1 = key)).map (·.2)

theorem nodup_eraseDups (names : List Text) : names.eraseDups.Nodup := by
  induction h : names.length using Nat.strongRecOn generalizing names with
  | ind n ih =>
    cases names with
    | nil => exact List.nodup_nil
    | cons name rest =>
      have hlength : (rest.filter fun b => !b == name).length < n := by
        have := List.length_filter_le (fun b => !b == name) rest
        rw [List.length_cons] at h
        omega
      rw [List.eraseDups_cons, List.nodup_cons, List.mem_eraseDups]
      exact ⟨by simp, ih _ hlength _ rfl⟩

/-- The bodies by key, a key where it first appears; those of `seen` are left out. -/
def gathered (seen : List Text) : List (Text × Text) → List (Text × List Text)
  | [] => []
  | (key, body) :: rest =>
    if key ∈ seen then gathered seen rest
    else (key, body :: bodiesUnder key rest) :: gathered (seen ++ [key]) rest

theorem foldl_place (shown : List (Text × List Text)) (extras : Nat) (pieces : List Piece) :
    (pieces.foldl place (shown, extras)).1 =
      (keyed extras pieces).foldl (fun shown p => addBody p.1 p.2 shown) shown := by
  induction pieces generalizing shown extras with
  | nil => rfl
  | cons piece rest ih =>
    cases piece with
    | kept text => exact ih _ _
    | block name body => exact ih _ _

theorem addBody_of_notMem {key body : Text} {shown : List (Text × List Text)}
    (h : key ∉ shown.map (·.1)) : addBody key body shown = shown ++ [(key, [body])] := by
  induction shown with
  | nil => rfl
  | cons g rest ih =>
    rw [List.map_cons, List.mem_cons, not_or] at h
    rw [addBody, if_neg (Ne.symm h.1), ih h.2, List.cons_append]

theorem addBody_of_mem {key body : Text} {shown : List (Text × List Text)}
    (hnodup : (shown.map (·.1)).Nodup) (h : key ∈ shown.map (·.1)) :
    addBody key body shown =
      shown.map fun g => if g.1 = key then (g.1, g.2 ++ [body]) else g := by
  induction shown with
  | nil => cases h
  | cons g rest ih =>
    rw [List.map_cons, List.nodup_cons] at hnodup
    rw [addBody, List.map_cons]
    by_cases hg : g.1 = key
    · -- The other groups have other keys and stay.
      have hrest : rest.map (fun g => if g.1 = key then (g.1, g.2 ++ [body]) else g) = rest := by
        rw [List.map_congr_left (g := id), List.map_id]
        intro other hother
        rw [if_neg]
        · rfl
        · rintro rfl
          exact hnodup.1 (hg ▸ List.mem_map_of_mem hother)
      rw [if_pos hg, if_pos hg, hrest]
    · rw [List.map_cons, List.mem_cons] at h
      rw [if_neg hg, if_neg hg, ih hnodup.2 (h.resolve_left (Ne.symm hg))]

/-- Adding bodies one after the other extends the groups that are there, and gathers the rest. -/
theorem foldl_addBody (pairs : List (Text × Text)) (shown : List (Text × List Text))
    (h : (shown.map (·.1)).Nodup) :
    pairs.foldl (fun shown p => addBody p.1 p.2 shown) shown =
      shown.map (fun g => (g.1, g.2 ++ bodiesUnder g.1 pairs)) ++
        gathered (shown.map (·.1)) pairs := by
  induction pairs generalizing shown with
  | nil => simp [bodiesUnder, gathered]
  | cons p rest ih =>
    obtain ⟨key, body⟩ := p
    rw [List.foldl_cons, gathered]
    by_cases hkey : key ∈ shown.map (·.1)
    · have hkeys : (shown.map fun g => if g.1 = key then (g.1, g.2 ++ [body]) else g).map (·.1) =
          shown.map (·.1) := by
        rw [List.map_map]
        refine List.map_congr_left fun g _ => ?_
        simp only [Function.comp_apply]
        split <;> rfl
      rw [addBody_of_mem h hkey, ih _ (hkeys ▸ h), hkeys, if_pos hkey, List.map_map]
      congr 1
      refine List.map_congr_left fun g _ => ?_
      simp only [Function.comp_apply, bodiesUnder, List.filter_cons]
      by_cases hg : g.1 = key
      · simp [hg]
      · simp [hg, Ne.symm hg]
    · have hnodup : ((shown ++ [(key, [body])]).map (·.1)).Nodup := by
        rw [List.map_append, List.nodup_append]
        refine ⟨h, by simp, ?_⟩
        rintro _ ha _ hb rfl
        obtain rfl := List.mem_singleton.mp hb
        exact hkey ha
      rw [addBody_of_notMem hkey, ih _ hnodup, if_neg hkey, List.map_append, List.map_append,
        List.append_assoc]
      congr 1
      refine List.map_congr_left fun g hg => ?_
      have hg' : key ≠ g.1 := fun heq => hkey (heq ▸ List.mem_map_of_mem hg)
      simp [bodiesUnder, hg']

/-! ### The merged text -/

def isBlankText (text : Text) : Bool := (Text.trim text).isEmpty

/-- One block of namespace `name`, with the bodies that are not blank. -/
def blockText (name : Text) (bodies : List Text) : Text :=
  keyword ++ name ++ " \x7b\n\t".toList ++
    Text.join ['\t'] (bodies.filter fun body => !isBlankText body) ++ "\x7d\n".toList

/-- Kept text, unless it is blank. -/
def keptText (text : Text) : Text := if isBlankText text then [] else text

/-- The bodies of the blocks of namespace `name` among pieces. -/
def bodiesOf (name : Text) : List Piece → List Text
  | [] => []
  | .kept _ :: rest => bodiesOf name rest
  | .block name' body :: rest => if name' = name then body :: bodiesOf name rest
    else bodiesOf name rest

/-- The text of pieces, with one block for each namespace where it first appears; those of `seen`
are left out. -/
def written (seen : List Text) : List Piece → Text
  | [] => []
  | .kept text :: rest => keptText text ++ written seen rest
  | .block name body :: rest =>
    if name ∈ seen then written seen rest
    else blockText name (body :: bodiesOf name rest) ++ written (seen ++ [name]) rest

/-- No block among the pieces has the key of kept text for a name. -/
def NamesPlain (pieces : List Piece) : Prop :=
  ∀ name body, Piece.block name body ∈ pieces → isAdditional name = false

theorem NamesPlain.tail {piece : Piece} {rest : List Piece} (h : NamesPlain (piece :: rest)) :
    NamesPlain rest := fun name body hmem => h name body (List.mem_cons_of_mem _ hmem)

/-- The text of one group. -/
def shownText (g : Text × List Text) : Text :=
  if isAdditional g.1 then Text.join [] (g.2.filter fun body => !isBlankText body)
  else blockText g.1 g.2

theorem flatMap_render (groups : Groups) :
    groups.flatMap Group.render = groups.shown.flatMap shownText := by
  rw [Groups.shown, List.flatMap_map]
  rfl

theorem shownText_extraKey (n : Nat) (text : Text) :
    shownText (extraKey n, [text]) = keptText text := by
  rw [shownText, if_pos (isAdditional_extraKey n), keptText]
  cases h : isBlankText text <;> simp [h, Text.join]

theorem bodiesUnder_keyed_name {name : Text} (h : isAdditional name = false) (extras : Nat)
    (pieces : List Piece) : bodiesUnder name (keyed extras pieces) = bodiesOf name pieces := by
  induction pieces generalizing extras with
  | nil => rfl
  | cons piece rest ih =>
    cases piece with
    | kept text =>
      rw [bodiesOf, ← ih (extras + 1)]
      simp [bodiesUnder, keyed, extraKey_ne h extras]
    | block name' body =>
      rw [bodiesOf, ← ih extras]
      by_cases hname : name' = name <;> simp [bodiesUnder, keyed, hname]

theorem bodiesUnder_keyed_extraKey {pieces : List Piece} (h : NamesPlain pieces) {n extras : Nat}
    (hn : n < extras) : bodiesUnder (extraKey n) (keyed extras pieces) = [] := by
  induction pieces generalizing extras with
  | nil => rfl
  | cons piece rest ih =>
    cases piece with
    | kept text =>
      have hne : extraKey extras ≠ extraKey n := fun heq => Nat.ne_of_gt hn (extraKey_inj heq)
      have hrest := ih h.tail (Nat.lt_succ_of_lt hn)
      simp only [bodiesUnder, keyed, List.filter_cons, decide_eq_true_eq, hne, if_false] at hrest ⊢
      exact hrest
    | block name body =>
      have hne := (extraKey_ne (h _ _ List.mem_cons_self) n).symm
      have hrest := ih h.tail hn
      simp only [bodiesUnder, keyed, List.filter_cons, decide_eq_true_eq, hne, if_false] at hrest ⊢
      exact hrest

/-- The groups that are gathered from pieces are written as the pieces are. The keys seen so far
hold the names seen so far, and of the keys of kept text only those given out already. -/
theorem flatMap_gathered {pieces : List Piece} (h : NamesPlain pieces) {keys seen : List Text}
    {extras : Nat} (hextras : ∀ n, extras ≤ n → extraKey n ∉ keys)
    (hseen : ∀ name, isAdditional name = false → (name ∈ keys ↔ name ∈ seen)) :
    (gathered keys (keyed extras pieces)).flatMap shownText = written seen pieces := by
  induction pieces generalizing keys seen extras with
  | nil => rfl
  | cons piece rest ih =>
    cases piece with
    | kept text =>
      rw [keyed, gathered, if_neg (hextras extras (Nat.le_refl _)), List.flatMap_cons,
        bodiesUnder_keyed_extraKey h.tail (Nat.lt_succ_self _), shownText_extraKey, written]
      congr 1
      refine ih h.tail (fun n hn => ?_) fun name hname => ?_
      · have hne : extraKey n ≠ extraKey extras := fun heq => by
          have := extraKey_inj heq
          omega
        simp [hextras n (by omega), hne]
      · simp [hseen name hname, (extraKey_ne hname extras).symm]
    | block name body =>
      have hname : isAdditional name = false := h _ _ List.mem_cons_self
      rw [keyed, gathered, written]
      by_cases hmem : name ∈ seen
      · rw [if_pos hmem, if_pos ((hseen name hname).mpr hmem)]
        exact ih h.tail hextras hseen
      · rw [if_neg hmem, if_neg (mt (hseen name hname).mp hmem), List.flatMap_cons,
          bodiesUnder_keyed_name hname, shownText, if_neg (by simp [hname])]
        congr 1
        refine ih h.tail (fun n hn => ?_) fun name' hname' => ?_
        · simp [hextras n hn, extraKey_ne hname n]
        · simp [hseen name' hname']

theorem block_mem_piecesOf {lead name body : Text} {chunks : List Chunk}
    (h : Piece.block name body ∈ piecesOf lead chunks) : ∃ c ∈ chunks, c.name = name := by
  have hgap : ∀ gap, Piece.block name body ∉ keptGap gap := fun gap => by
    rw [keptGap]
    split <;> simp
  have hstart : Piece.block name body ∉ keptStart lead := by
    rw [keptStart]
    split <;> simp
  have hfrom := (List.mem_append.mp h).resolve_left hstart
  clear h
  induction chunks with
  | nil => cases hfrom
  | cons c further ih =>
    rw [piecesFrom, List.mem_cons, List.mem_append] at hfrom
    rcases hfrom with h | h | h
    · cases h
      exact ⟨c, List.mem_cons_self, rfl⟩
    · exact (hgap _ h).elim
    · obtain ⟨c', hc', hname⟩ := ih h
      exact ⟨c', List.mem_cons_of_mem _ hc', hname⟩

/-- The merged text of a text with header lines. -/
theorem contents_merge? {text : Text} (h : (chunksOf text.lines).2 ≠ [])
    (hnames : ∀ c ∈ (chunksOf text.lines).2, isAdditional c.name = false) :
    (merge? text).map (·.contents) = some (normalizeLineEnds
      (written [] (piecesOf (leadOf (chunksOf text.lines).1) (chunksOf text.lines).2))) := by
  obtain ⟨groups, horganize, hshown⟩ := organize?_scan h
  have hscan : (scan text).isEmpty = false := by
    obtain ⟨c, further, hchunks⟩ := List.exists_cons_of_ne_nil h
    rw [scan_eq, hchunks]
    rfl
  have hplain : NamesPlain (piecesOf (leadOf (chunksOf text.lines).1) (chunksOf text.lines).2) := by
    intro name body hmem
    obtain ⟨c, hc, rfl⟩ := block_mem_piecesOf hmem
    exact hnames c hc
  have hkeys : ∀ n, 0 ≤ n → extraKey n ∉ ([] : List Text) := fun _ _ => List.not_mem_nil
  rw [foldl_place, foldl_addBody _ [] List.nodup_nil, List.map_nil, List.nil_append,
    List.map_nil] at hshown
  simp only [merge?, hscan, horganize, render, flatMap_render, hshown, Bool.false_eq_true,
    if_false, Option.bind_eq_bind, Option.bind_some, Option.pure_def, Option.map_some,
    flatMap_gathered hplain hkeys fun _ _ => Iff.rfl]

/-- The merged text of a text whose chunks have the given names. -/
theorem contents_merge?_of_names {text : Text} {names : List Text}
    (h : (chunksOf text.lines).2.map Chunk.name = names) (hne : names ≠ [])
    (hplain : ∀ name ∈ names, isAdditional name = false) :
    (merge? text).map (·.contents) = some (normalizeLineEnds
      (written [] (piecesOf (leadOf (chunksOf text.lines).1) (chunksOf text.lines).2))) := by
  subst h
  exact contents_merge? (fun hnil => hne (List.map_eq_nil_iff.mpr hnil))
    (List.forall_mem_map.mp hplain)

end NamespaceMerge.Declaration
