import Mathlib.Data.List.Induction
import Mathlib.Data.List.TakeWhile
import NamespaceMerge.Disk.Basic
import NamespaceMerge.Proofs.Text.Basic
import NamespaceMerge.Proofs.Text.Pairs

/-! The parts of paths, and the names of merged files. A path that ends with an extension has the
components of its directory and one more (`components_of_suffix`). A name that ends with its
extension keeps what stands in front of it (`output_of_extension`), so different names have
different outputs. -/

namespace NamespaceMerge.FileName

/-! ### Components -/

theorem names_append (a b : Text) : names (a ++ '/' :: b) = names a ++ names b := by
  rw [names, Text.splitAll_append_mark, List.filter_append]
  rfl

theorem names_nil : names [] = [] := rfl

theorem names_slash (rest : Text) : names ('/' :: rest) = names rest := names_append [] rest

theorem components_slash (rest : Text) : components ('/' :: rest) = root :: names rest := by
  rw [components, split, List.filter_cons_of_pos (by decide)]
  rfl

theorem split_of_relative {path : Text} (h : path.head? ≠ some '/') :
    split path = Text.splitAll '/' path := by
  rw [split]
  rintro rest rfl
  exact h rfl

theorem components_of_relative {path : Text} (h : path.head? ≠ some '/') :
    components path = names path := by
  rw [components, split_of_relative h, names]

theorem head?_cons_ne_slash {c : Char} (h : c ≠ '/') (text : Text) :
    (c :: text).head? ≠ some '/' := fun hhead => h (Option.some.inj hhead)

/-- A root in front does not show at the end of a path. -/
theorem getLast?_split (path : Text) :
    (split path).getLast? = (Text.splitAll '/' path).getLast? := by
  by_cases hslash : path.head? = some '/'
  · obtain ⟨rest, rfl⟩ := List.head?_eq_some_iff.mp hslash
    obtain ⟨part, parts, hparts⟩ := List.exists_cons_of_ne_nil (Text.splitAll_ne_nil '/' rest)
    rw [split, Text.splitAll_cons_mark, hparts, List.getLast?_cons_cons, List.getLast?_cons_cons]
  · rw [split_of_relative hslash]

theorem components_nil : components [] = [] := rfl

/-- What stands before a separator stays apart from what stands behind it. -/
theorem exists_split_append (a : Text) :
    ∃ front, (∀ b, split (a ++ '/' :: b) = front ++ Text.splitAll '/' b) ∧
      components (a ++ ['/']) = front.filter (!saysNothing ·) := by
  cases a with
  | nil => exact ⟨[root], fun b => rfl, rfl⟩
  | cons c a =>
    by_cases hc : c = '/'
    · subst hc
      refine ⟨root :: Text.splitAll '/' a, fun b => ?_, ?_⟩
      · rw [List.cons_append, split, Text.splitAll_append_mark]
        rfl
      · rw [List.cons_append, components_slash, names_append, names_nil, List.append_nil,
          List.filter_cons_of_pos (by decide)]
        rfl
    · have hhead := head?_cons_ne_slash hc
      refine ⟨Text.splitAll '/' (c :: a), fun b => ?_, ?_⟩
      · rw [List.cons_append, split_of_relative (hhead _), ← List.cons_append,
          Text.splitAll_append_mark]
      · rw [List.cons_append, components_of_relative (hhead _), ← List.cons_append, names_append,
          names_nil, List.append_nil]
        rfl

/-- The components up to a separator, and the names behind it. -/
theorem components_append_slash (a b : Text) :
    components (a ++ '/' :: b) = components (a ++ ['/']) ++ names b := by
  obtain ⟨front, hsplit, hfront⟩ := exists_split_append a
  rw [components, hsplit, List.filter_append, hfront]
  rfl

/-- A separator at the end says nothing, except that a path that is nothing else is the root. -/
theorem components_concat_slash {a : Text} (h : a ≠ []) :
    components (a ++ ['/']) = components a := by
  cases a with
  | nil => exact absurd rfl h
  | cons c a =>
    by_cases hc : c = '/'
    · subst hc
      rw [List.cons_append, components_slash, components_slash, names_append, names_nil,
        List.append_nil]
    · have hhead := head?_cons_ne_slash hc
      rw [List.cons_append, components_of_relative (hhead _), components_of_relative (hhead _),
        ← List.cons_append, names_append, names_nil, List.append_nil]

theorem head?_ne_slash {name : Text} (h : '/' ∉ name) : name.head? ≠ some '/' := fun hhead =>
  h (List.mem_of_head? hhead)

theorem saysNothing_eq_false {component : Text} (h : 2 ≤ component.length) :
    saysNothing component = false := by
  have hnil : component ≠ [] := by
    rintro rfl
    simp at h
  have hhere : component ≠ ['.'] := by
    rintro rfl
    simp at h
  simp [saysNothing, hnil, hhere]

theorem names_of_notMem {name : Text} (h : '/' ∉ name) (hlength : 2 ≤ name.length) :
    names name = [name] := by
  rw [names, Text.splitAll_of_notMem h, List.filter_cons_of_pos, List.filter_nil]
  rw [saysNothing_eq_false hlength]
  rfl

theorem components_of_notMem {name : Text} (h : '/' ∉ name) (hlength : 2 ≤ name.length) :
    components name = [name] := by
  rw [components_of_relative (head?_ne_slash h), names_of_notMem h hlength]

/-- Separators at the end say nothing, unless there is nothing else. -/
theorem components_dropTrailing {path : Text} (h : path.all (· == '/') = false) :
    components (Text.dropTrailing '/' path) = components path := by
  induction path using List.reverseRecOn with
  | nil => rfl
  | append_singleton path c ih =>
    by_cases hc : c = '/'
    · have hdrop : Text.dropTrailing '/' (path ++ [c]) = Text.dropTrailing '/' path := by
        simp [Text.dropTrailing, hc]
      subst hc
      rw [List.all_append, List.all_cons, List.all_nil, beq_self_eq_true, Bool.and_true,
        Bool.and_true] at h
      rw [hdrop, ih h, components_concat_slash]
      rintro rfl
      cases h
    · simp [Text.dropTrailing, hc]

theorem components_directory_append {name : Text} (a : Text) (h : '/' ∉ name) :
    components (directory (a ++ '/' :: name)) = components (a ++ ['/']) := by
  have hhead : ((a ++ '/' :: name).reverse.dropWhile (· ≠ '/')).reverse = a ++ ['/'] := by
    have hname : ∀ c ∈ name.reverse, decide (c ≠ '/') = true := by
      intro c hc
      exact decide_eq_true fun heq => h (heq ▸ List.mem_reverse.mp hc)
    rw [List.reverse_append, List.reverse_cons, List.append_assoc,
      List.dropWhile_append_of_pos hname]
    simp
  rw [directory, hhead]
  split
  · rfl
  · next hall => exact components_dropTrailing (Bool.eq_false_iff.mpr hall)

theorem directory_of_notMem {name : Text} (h : '/' ∉ name) : directory name = [] := by
  have hhead : (name.reverse.dropWhile (· ≠ '/')).reverse = [] := by
    rw [List.reverse_eq_nil_iff, List.dropWhile_eq_nil_iff]
    intro c hc
    exact decide_eq_true fun heq => h (heq ▸ List.mem_reverse.mp hc)
  rw [directory, hhead]
  rfl

/-- A path that ends with a proper name: its components are those of its directory and the name. -/
theorem components_of_suffix {path extension : Text} (h : extension <:+ path)
    (hslash : '/' ∉ extension) (hlength : 2 ≤ extension.length) :
    ∃ stem, components path = components (directory path) ++ [stem ++ extension] ∧ '/' ∉ stem := by
  obtain ⟨front, rfl⟩ := h
  have hproper (stem : Text) (hstem : '/' ∉ stem) :
      components (stem ++ extension) = [stem ++ extension] := by
    refine components_of_notMem (by simp [hstem, hslash]) ?_
    rw [List.length_append]
    exact Nat.le_add_left_of_le hlength
  by_cases hfront : '/' ∈ front
  · obtain ⟨a, stem, rfl, hstem⟩ := Text.exists_eq_append_cons_of_mem hfront
    have hname : '/' ∉ stem ++ extension := by simp [hstem, hslash]
    refine ⟨stem, ?_, hstem⟩
    rw [List.append_assoc, List.cons_append, components_append_slash,
      components_directory_append a hname, ← components_of_relative (head?_ne_slash hname),
      hproper stem hstem]
  · refine ⟨front, ?_, hfront⟩
    rw [hproper front hfront, directory_of_notMem (by simp [hfront, hslash]), components_nil,
      List.nil_append]

/-- What a path that ends with a proper name is split into, and its components. -/
theorem split_of_suffix {path extension : Text} (h : extension <:+ path) (hslash : '/' ∉ extension)
    (hlength : 2 ≤ extension.length) :
    ∃ above name, split path = above ++ [name] ∧
      components path = above.filter (!saysNothing ·) ++ [name] := by
  obtain ⟨front, rfl⟩ := h
  have hlast : ∃ stem, (split (front ++ extension)).getLast? = some (stem ++ extension) := by
    by_cases hfront : '/' ∈ front
    · obtain ⟨a, stem, rfl, hstem⟩ := Text.exists_eq_append_cons_of_mem hfront
      have hname : '/' ∉ stem ++ extension := by simp [hstem, hslash]
      refine ⟨stem, ?_⟩
      rw [getLast?_split, List.append_assoc, List.cons_append, Text.splitAll_append_mark,
        Text.splitAll_of_notMem hname, List.getLast?_concat]
    · have hname : '/' ∉ front ++ extension := by simp [hfront, hslash]
      refine ⟨front, ?_⟩
      rw [getLast?_split, Text.splitAll_of_notMem hname, List.getLast?_singleton]
  obtain ⟨stem, hlast⟩ := hlast
  obtain ⟨above, hsplit⟩ := List.getLast?_eq_some_iff.mp hlast
  have hproper : saysNothing (stem ++ extension) = false := by
    refine saysNothing_eq_false ?_
    rw [List.length_append]
    exact Nat.le_add_left_of_le hlength
  refine ⟨above, stem ++ extension, hsplit, ?_⟩
  rw [components, hsplit, List.filter_append, List.filter_cons_of_pos, List.filter_nil]
  rw [hproper]
  rfl

/-! ### Joining components -/

theorem notMem_of_mem_names {path name : Text} (h : name ∈ names path) : '/' ∉ name :=
  Text.notMem_of_mem_splitAll (List.mem_filter.mp h).1

theorem ne_nil_of_mem_names {path name : Text} (h : name ∈ names path) : name ≠ [] := by
  rintro rfl
  exact absurd (List.mem_filter.mp h).2 (by decide)

theorem eq_root_or_notMem {path c : Text} (h : c ∈ components path) : c = root ∨ '/' ∉ c := by
  cases path with
  | nil => cases h
  | cons first rest =>
    by_cases hfirst : first = '/'
    · subst hfirst
      rw [components_slash] at h
      exact (List.mem_cons.mp h).imp id notMem_of_mem_names
    · rw [components_of_relative (head?_cons_ne_slash hfirst rest)] at h
      exact .inr (notMem_of_mem_names h)

theorem ofComponents_of_names {components : List Text} (h : ∀ c ∈ components, '/' ∉ c)
    (hne : components ≠ []) : ofComponents components = Text.join ['/'] components := by
  have hroot : components.contains root = false := by
    rw [List.contains_eq_mem, decide_eq_false_iff_not]
    exact fun hmem => h root hmem (List.mem_singleton.mpr rfl)
  rw [ofComponents, hroot, if_neg Bool.false_ne_true, if_neg (by simpa using hne)]

theorem ofComponents_root {components : List Text} (h : ∀ c ∈ components, '/' ∉ c) :
    ofComponents (root :: components) = '/' :: Text.join ['/'] components := by
  have htake : ((root :: components).reverse.takeWhile (· ≠ root)).reverse = components := by
    rw [List.reverse_cons, List.takeWhile_append_of_pos, List.takeWhile_cons_of_neg (by decide),
      List.append_nil, List.reverse_reverse]
    intro c hc
    refine decide_eq_true fun heq => h c (List.mem_reverse.mp hc) ?_
    rw [heq]
    exact List.mem_singleton.mpr rfl
  rw [ofComponents, htake, if_pos (by simp)]

theorem split_join {components : List Text} (h : ∀ c ∈ components, '/' ∉ c)
    (hne : components ≠ []) (hnil : ∀ c ∈ components, c ≠ []) :
    split (Text.join ['/'] components) = components := by
  have hsplit := Text.splitAll_join h hne
  rw [split_of_relative, hsplit]
  intro hslash
  obtain ⟨rest, hrest⟩ := List.head?_eq_some_iff.mp hslash
  rw [hrest, Text.splitAll_cons_mark] at hsplit
  exact hnil [] (hsplit ▸ List.mem_cons_self) rfl

theorem ofComponents_concat_root (front : List Text) : ofComponents (front ++ [root]) = root := by
  rw [ofComponents, if_pos (by simp), List.reverse_append, List.reverse_singleton,
    List.singleton_append, List.takeWhile_cons_of_neg (by decide)]
  rfl

/-- A path from components ends as the last of them does, unless that is the root. -/
theorem getLast?_split_ofComponents (front : List Text) {last : Text} (h : last ≠ root) :
    (split (ofComponents (front ++ [last]))).getLast? = (Text.splitAll '/' last).getLast? := by
  have htake : ((front ++ [last]).reverse.takeWhile (· ≠ root)).reverse =
      (front.reverse.takeWhile (· ≠ root)).reverse ++ [last] := by
    rw [List.reverse_append, List.reverse_singleton, List.singleton_append,
      List.takeWhile_cons_of_pos (by exact decide_eq_true h), List.reverse_cons]
  rw [getLast?_split, ofComponents, htake]
  split
  · -- the root is one more component in front, with nothing in it
    have hjoin := Text.join_cons ['/'] []
      (List.append_ne_nil_of_right_ne_nil (front.reverse.takeWhile (· ≠ root)).reverse
        (List.cons_ne_nil last []))
    exact (congrArg (fun path => (Text.splitAll '/' path).getLast?) hjoin.symm).trans
      (Text.getLast?_splitAll_join ([] :: _) last)
  · rw [if_neg (by simp)]
    exact Text.getLast?_splitAll_join front last

/-! ### Outputs -/

theorem hasExtension_append (stem extension : Text) :
    hasExtension extension (stem ++ extension) = true := by
  rw [hasExtension, List.isSuffixOf_iff_suffix, Text.lower, Text.lower, List.map_append]
  exact List.suffix_append _ _

theorem output_of_extension (stem extension marker : Text) :
    output (stem ++ extension) extension marker = stem ++ markedExtension marker extension := by
  rw [output, if_pos (hasExtension_append stem extension)]
  simp

/-- The last two characters of an extension stay, unless there is a point among them. -/
theorem suffix_markedExtension {c : Char} (hc : c ≠ '.') (marker front : Text) (d : Char) :
    [c, d] <:+ markedExtension marker (front ++ [c, d]) := by
  refine ⟨Text.replacePair '.' '.' ['.'] ('.' :: (marker ++ front)), ?_⟩
  have hsplit : Text.replacePair '.' '.' ['.'] ('.' :: (marker ++ front) ++ c :: [d]) = _ :=
    Text.replacePair_append_cons hc hc _ _ _
  rw [List.cons_append, List.append_assoc] at hsplit
  exact hsplit.symm

theorem notMem_markedExtension {c : Char} {marker extension : Text} (hc : c ≠ '.')
    (hmarker : c ∉ marker) (hextension : c ∉ extension) :
    c ∉ markedExtension marker extension := by
  intro h
  rcases Text.mem_replacePair h with h | h
  · exact hc (List.mem_singleton.mp h)
  · rcases List.mem_cons.mp h with h | h
    · exact hc h
    · exact (List.mem_append.mp h).elim hmarker hextension

end NamespaceMerge.FileName
