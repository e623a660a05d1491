import NamespaceMerge.Proofs.Declaration.Gathering

/-! How blocks and kept text are filed. Organizing keeps the regions around the blocks that are wide
enough (`keptRegions`), and enters each of them under a key of its own and each block under its
name (`Files`); the groups are read off these entries (`Groups.ofEntries`), and every text with
blocks is filed in this way (`exists_organize?_files`). -/

namespace NamespaceMerge

namespace Declaration

/-! ### Regions -/

/-- The part of a text from offset `start` up to offset `stop`. -/
structure Region where
  start : Nat
  stop : Nat
deriving DecidableEq

namespace Region

def text (r : Region) (whole : Text) : Text := whole.slice r.start r.stop

theorem length_text (whole : Text) (start stop : Nat) :
    ((mk start stop).text whole).length = min (stop - start) (whole.length - start) :=
  whole.length_slice start stop

/-- The region as a piece that is kept. -/
def piece (whole : Text) (r : Region) : Block :=
  { name := additionalName, start := r.start, stop := some r.stop, body := some (r.text whole) }

end Region

/-- The regions behind the blocks of a text, given where the block before them has ended. -/
def gapsFrom (text : Text) (position : Nat) : List Block → List Region
  | [] => [⟨position, text.length⟩]
  | b :: rest => ⟨position, b.start⟩ :: gapsFrom text (b.stop.getD 0 + 1) rest

/-- The regions of at least `least` characters. -/
def wideRegions (text : Text) (least : Nat) (regions : List Region) : List Region :=
  regions.filter fun r => least ≤ (r.text text).length

/-- The regions around stripped blocks that are kept: at the start from three characters on,
behind a block from two. -/
def keptRegions (text : Text) : List Block → List Region
  | [] => []
  | first :: rest =>
    wideRegions text 3 [⟨0, first.start⟩] ++
      wideRegions text 2 (gapsFrom text (first.stop.getD 0 + 1) rest)

theorem wideRegions_cons (text : Text) (least : Nat) (r : Region) (regions : List Region) :
    wideRegions text least (r :: regions) =
      wideRegions text least [r] ++ wideRegions text least regions :=
  List.filter_append [r] regions

/-! ### Entries -/

/-- The blocks that are entered under a key. -/
def blocksUnder (key : Text) (entries : List (Text × Block)) : List Block :=
  (entries.filter (·.1 = key)).map (·.2)

theorem blocksUnder_append (key : Text) (entries entries' : List (Text × Block)) :
    blocksUnder key (entries ++ entries') =
      blocksUnder key entries ++ blocksUnder key entries' := by
  rw [blocksUnder, List.filter_append, List.map_append]
  rfl

theorem blocksUnder_singleton (key key' : Text) (b : Block) :
    blocksUnder key [(key', b)] = if key = key' then [b] else [] := by
  rw [blocksUnder, List.filter_singleton]
  by_cases h : key = key' <;> simp [h, eq_comm]

theorem blocksUnder_of_notMem {key : Text} {entries : List (Text × Block)}
    (h : key ∉ entries.map (·.1)) : blocksUnder key entries = [] := by
  rw [blocksUnder, List.map_eq_nil_iff, List.filter_eq_nil_iff]
  intro e he hkey
  exact h (of_decide_eq_true hkey ▸ List.mem_map_of_mem he)

/-- Under a key it does not matter which entries with other keys there are. -/
theorem blocksUnder_filter {p : Text → Bool} {key : Text} (hkey : p key = true)
    (entries : List (Text × Block)) :
    blocksUnder key (entries.filter fun e => p e.1) = blocksUnder key entries := by
  rw [blocksUnder, blocksUnder, List.filter_filter]
  refine congrArg _ (List.filter_congr fun e _ => ?_)
  by_cases heq : e.1 = key <;> simp [heq, hkey]

namespace Groups

/-- Groups that hold entries, each under its key, and a key where it first appears. -/
def ofEntries (entries : List (Text × Block)) : Groups :=
  (entries.map (·.1)).eraseDups.map fun key => { key, blocks := blocksUnder key entries }

theorem add_map_of_notMem {keys : List Text} {key : Text} (h : key ∉ keys)
    (blocks : Text → List Block) (b : Block) :
    add (keys.map fun k => ⟨k, blocks k⟩) key b =
      (keys.map fun k => ⟨k, blocks k⟩) ++ [⟨key, [b]⟩] := by
  induction keys with
  | nil => rfl
  | cons k rest ih =>
    rw [List.mem_cons, not_or] at h
    rw [List.map_cons, add, if_neg (Ne.symm h.1), ih h.2, List.cons_append]

theorem add_map_of_mem {keys : List Text} {key : Text} (hnodup : keys.Nodup) (h : key ∈ keys)
    (blocks : Text → List Block) (b : Block) :
    add (keys.map fun k => ⟨k, blocks k⟩) key b =
      keys.map fun k => ⟨k, blocks k ++ if k = key then [b] else []⟩ := by
  induction keys with
  | nil => cases h
  | cons k rest ih =>
    rw [List.nodup_cons] at hnodup
    rw [List.map_cons, List.map_cons, add]
    by_cases hk : k = key
    · subst hk
      rw [if_pos rfl, if_pos rfl]
      refine congrArg _ (List.map_congr_left fun other hother => ?_)
      rw [if_neg, List.append_nil]
      rintro rfl
      exact hnodup.1 hother
    · rw [if_neg hk, if_neg hk, ih hnodup.2 ((List.mem_cons.mp h).resolve_left (Ne.symm hk)),
        List.append_nil]

theorem add_ofEntries (entries : List (Text × Block)) (key : Text) (b : Block) :
    add (ofEntries entries) key b = ofEntries (entries ++ [(key, b)]) := by
  simp only [ofEntries, blocksUnder_append, blocksUnder_singleton, List.map_append, List.map_cons,
    List.map_nil, List.eraseDups_append]
  by_cases hkey : key ∈ entries.map (·.1)
  · have hnew : [key].removeAll (entries.map (·.1)) = [] := by simp [List.removeAll, hkey]
    rw [add_map_of_mem (nodup_eraseDups _) (List.mem_eraseDups.mpr hkey), hnew, List.eraseDups_nil,
      List.map_nil, List.append_nil]
  · have hnew : ([key].removeAll (entries.map (·.1))).eraseDups = [key] := by
      rw [show [key].removeAll (entries.map (·.1)) = [key] by simp [List.removeAll, hkey]]
      rfl
    have hold : ∀ k ∈ (entries.map (·.1)).eraseDups, k ≠ key := by
      rintro k hk rfl
      exact hkey (List.mem_eraseDups.mp hk)
    rw [add_map_of_notMem (mt List.mem_eraseDups.mp hkey), hnew, List.map_singleton,
      if_pos rfl, blocksUnder_of_notMem hkey]
    refine congrArg (· ++ _) (List.map_congr_left fun k hk => ?_)
    rw [if_neg (hold k hk), List.append_nil]

end Groups

/-! ### Filing -/

/-- The entry of a kept region, with its number. -/
def regionEntry (text : Text) (n : Nat) (r : Region) : Text × Block := (extraKey n, r.piece text)

/-- Entries of kept regions of a text, numbered from zero, and of blocks under their names. -/
structure Files (text : Text) (regions : List Region) (blocks : List Block)
    (entries : List (Text × Block)) : Prop where
  regions : entries.filter (fun e => e.2.name ≠ e.1) = regions.mapIdx (regionEntry text)
  blocks : entries.filter (fun e => e.2.name = e.1) = blocks.map fun b => (b.name, b)

theorem name_piece_ne (text : Text) (r : Region) (n : Nat) : (r.piece text).name ≠ extraKey n :=
  fun h => Decimal.digits_ne_nil n (List.self_eq_append_right.mp h)

namespace Files

variable {text : Text} {regions : List Region} {blocks : List Block}
  {entries : List (Text × Block)}

theorem nil (text : Text) : Files text [] [] [] := ⟨rfl, rfl⟩

theorem region (h : Files text regions blocks entries) (r : Region) :
    Files text (regions ++ [r]) blocks (entries ++ [(extraKey regions.length, r.piece text)]) := by
  have hne := name_piece_ne text r regions.length
  constructor
  · rw [List.filter_append, h.regions, List.mapIdx_concat,
      List.filter_cons_of_pos (by simpa using hne)]
    rfl
  · rw [List.filter_append, h.blocks, List.filter_cons_of_neg (by simpa using hne),
      List.filter_nil, List.append_nil]

theorem block (h : Files text regions blocks entries) (b : Block) :
    Files text regions (blocks ++ [b]) (entries ++ [(b.name, b)]) := by
  constructor
  · rw [List.filter_append, h.regions, List.filter_cons_of_neg (by simp), List.filter_nil,
      List.append_nil]
  · rw [List.filter_append, h.blocks, List.filter_cons_of_pos (by simp), List.map_append]
    rfl

end Files

/-- What is organized so far is filed: the regions that were kept, and the blocks that were
added. -/
structure Organizing.Filed (o : Organizing) (text : Text) (regions : List Region)
    (blocks : List Block) : Prop where
  extras : o.extras = regions.length
  groups : ∃ entries, o.groups = .ofEntries entries ∧ Files text regions blocks entries

namespace Organizing

variable {o : Organizing} {text : Text} {regions : List Region} {blocks : List Block} {stop : Nat}

theorem Filed.start (text : Text) : Filed {} text [] [] := ⟨rfl, [], rfl, .nil text⟩

theorem Filed.keep (h : o.Filed text regions blocks) (r : Region) :
    (o.keep text r.start r.stop).Filed text (regions ++ [r]) blocks := by
  obtain ⟨hextras, entries, hgroups, hfiles⟩ := h
  refine ⟨by simp [Organizing.keep, hextras], _, ?_, hfiles.region r⟩
  rw [← Groups.add_ofEntries, ← hgroups, ← hextras]
  rfl

/-- A region is kept if it is wide enough. -/
theorem Filed.keepWide (h : o.Filed text regions blocks) (r : Region) (least : Nat) {wide : Prop}
    [Decidable wide] (hwide : wide ↔ least ≤ (r.text text).length) :
    (if wide then o.keep text r.start r.stop else o).Filed text
      (regions ++ wideRegions text least [r]) blocks := by
  rw [wideRegions, List.filter_singleton]
  by_cases hkept : wide
  · simpa [hkept, hwide.mp hkept] using h.keep r
  · simpa [hkept, mt hwide.mpr hkept] using h

theorem Filed.keepStart (h : o.Filed text regions blocks) (hstop : stop ≤ text.length) :
    (o.keepStart text stop).Filed text (regions ++ wideRegions text 3 [⟨0, stop⟩]) blocks := by
  refine h.keepWide ⟨0, stop⟩ 3 ?_
  rw [Region.length_text, gapThreshold]
  omega

theorem Filed.keepGap (h : o.Filed text regions blocks) (hstop : stop ≤ text.length) :
    (o.keepGap text stop).Filed text (regions ++ wideRegions text 2 [⟨o.position, stop⟩])
      blocks := by
  refine h.keepWide ⟨o.position, stop⟩ 2 ?_
  rw [Region.length_text, gapThreshold]
  omega

/-- A block is filed under its name, after what is kept in front of it. -/
theorem Filed.addBlock (h : o.Filed text regions blocks) (isFirst : Bool) {b : Block}
    (hstart : b.start ≤ text.length) (hstop : b.stop = some stop) :
    ∃ o', o.addBlock text isFirst b = some o' ∧ o'.position = stop + 1 ∧
      o'.Filed text (regions ++ if isFirst then wideRegions text 3 [⟨0, b.start⟩]
        else wideRegions text 2 [⟨o.position, b.start⟩]) (blocks ++ [b]) := by
  rw [Organizing.addBlock, hstop]
  refine ⟨_, rfl, rfl, ?_⟩
  have hkept : (if isFirst then o.keepStart text b.start else o.keepGap text b.start).Filed text
      (regions ++ if isFirst then wideRegions text 3 [⟨0, b.start⟩]
        else wideRegions text 2 [⟨o.position, b.start⟩]) blocks := by
    cases isFirst with
    | true => exact h.keepStart hstart
    | false => exact h.keepGap hstart
  obtain ⟨hextras, entries, hgroups, hfiles⟩ := hkept
  refine ⟨hextras, _, ?_, hfiles.block b⟩
  rw [← Groups.add_ofEntries, ← hgroups]

/-- Blocks that are added one after the other are filed with the regions around them. -/
theorem Filed.foldlM {more : List Block}
    (hmore : ∀ b ∈ more, b.start ≤ text.length ∧ b.stop.isSome) (h : o.Filed text regions blocks) :
    ∃ o', more.foldlM (fun o b => o.addBlock text false b) o = some o' ∧
      (o'.keepGap text text.length).Filed text
        (regions ++ wideRegions text 2 (gapsFrom text o.position more)) (blocks ++ more) := by
  induction more generalizing o regions blocks with
  | nil =>
    rw [List.append_nil]
    exact ⟨o, rfl, h.keepGap (Nat.le_refl _)⟩
  | cons b rest ih =>
    rw [List.forall_mem_cons] at hmore
    obtain ⟨⟨hstart, hsome⟩, hrest⟩ := hmore
    obtain ⟨stop, hstop⟩ := Option.isSome_iff_exists.mp hsome
    obtain ⟨o₁, hadd, hposition, hfiled⟩ := h.addBlock false hstart hstop
    obtain ⟨o₂, hfold, hall⟩ := ih hrest hfiled
    refine ⟨o₂, ?_, ?_⟩
    · rw [List.foldlM_cons, hadd]
      exact hfold
    · rw [hposition, List.append_assoc, List.append_assoc] at hall
      rwa [gapsFrom, hstop, Option.getD_some, wideRegions_cons]

end Organizing

/-- Organizing files the blocks, and the wide regions around them. -/
theorem exists_organize?_files {text : Text} {blocks : List Block} (hne : blocks ≠ [])
    (h : ∀ b ∈ blocks.map Block.strip, b.start ≤ text.length ∧ b.stop.isSome) :
    ∃ entries, organize? text blocks = some (.ofEntries entries) ∧
      Files text (keptRegions text (blocks.map Block.strip)) (blocks.map Block.strip) entries := by
  obtain ⟨first, rest, rfl⟩ := List.exists_cons_of_ne_nil hne
  rw [List.map_cons, List.forall_mem_cons] at h
  obtain ⟨⟨hstart, hsome⟩, hrest⟩ := h
  obtain ⟨stop, hstop⟩ := Option.isSome_iff_exists.mp hsome
  obtain ⟨o₁, hadd, hposition, hfiled⟩ := (Organizing.Filed.start text).addBlock true hstart hstop
  obtain ⟨o₂, hfold, hall⟩ := hfiled.foldlM hrest
  obtain ⟨-, entries, hgroups, hfiles⟩ := hall
  refine ⟨entries, ?_, ?_⟩
  · simp only [organize?, List.map_cons, hadd, hfold, ← hgroups, Option.bind_eq_bind,
      Option.bind_some, Option.pure_def]
  · rw [hposition] at hfiles
    rwa [List.map_cons, keptRegions, hstop, Option.getD_some]

end Declaration

end NamespaceMerge
