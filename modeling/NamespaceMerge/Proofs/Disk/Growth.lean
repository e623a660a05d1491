import NamespaceMerge.Disk.Basic

/-! What stays on a disk while directories are made and files are written. No directory is made
where a file is, so a path that leads to a directory goes on leading there
(`Grows.findFrom_directory`), and a path that leads to a file leads to the same place, whatever is
written there (`Grows.findFrom_file`). -/

namespace NamespaceMerge.Disk

open Utf8 (Bytes)

variable {d d' : Disk} {here place : Place} {bytes : Bytes} {component : Text}

/-! ### Following a path -/

/-- A component that names something in a directory. -/
structure IsName (component : Text) : Prop where
  ne_nil : component ≠ []
  ne_here : component ≠ ['.']
  ne_root : component ≠ FileName.root
  ne_up : component ≠ ['.', '.']

theorem component_cases (component : Text) :
    (component = [] ∨ component = ['.']) ∨ component = FileName.root ∨
      component = ['.', '.'] ∨ IsName component := by
  by_cases hskip : component = [] ∨ component = ['.']
  · exact .inl hskip
  · by_cases hroot : component = FileName.root
    · exact .inr (.inl hroot)
    · by_cases hup : component = ['.', '.']
      · exact .inr (.inr (.inl hup))
      · exact .inr (.inr (.inr ⟨fun h => hskip (.inl h), fun h => hskip (.inr h), hroot, hup⟩))

theorem findFrom_skip (h : component = [] ∨ component = ['.']) (rest : List Text) :
    d.findFrom here (component :: rest) = d.findFrom here rest := by
  rw [findFrom, if_pos h]

theorem findFrom_root (rest : List Text) :
    d.findFrom here (FileName.root :: rest) = d.findFrom [] rest := by
  rw [findFrom, if_neg (by decide), if_pos rfl]

theorem findFrom_up (rest : List Text) :
    d.findFrom here (['.', '.'] :: rest) = d.findFrom here.dropLast rest := by
  rw [findFrom, if_neg (by decide), if_neg (by decide), if_pos rfl]

theorem findFrom_name (h : IsName component) (rest : List Text) :
    d.findFrom here (component :: rest) =
      if d.isDirectoryPlace (here ++ [component]) then d.findFrom (here ++ [component]) rest
      else
        match d.files.lookup (here ++ [component]) with
        | some bytes =>
          if rest.isEmpty then .ok (.file (here ++ [component]) bytes) else .error .notDirectory
        | none => .error .missing := by
  rw [findFrom]
  exact (if_neg (not_or.mpr ⟨h.ne_nil, h.ne_here⟩)).trans
    ((if_neg h.ne_root).trans (if_neg h.ne_up))

/-- A path is followed one component at a time. -/
theorem findFrom_cons (d : Disk) (here : Place) (component : Text) (rest : List Text) :
    d.findFrom here (component :: rest) =
      match d.findFrom here [component] with
      | .ok (.directory place) => d.findFrom place rest
      | .ok (.file place bytes) =>
        if rest.isEmpty then .ok (.file place bytes) else .error .notDirectory
      | .error obstacle => .error obstacle := by
  rcases component_cases component with hskip | rfl | rfl | hname
  · rw [findFrom_skip hskip, findFrom_skip hskip, findFrom]
  · rw [findFrom_root, findFrom_root, findFrom]
  · rw [findFrom_up, findFrom_up, findFrom]
  · rw [findFrom_name hname, findFrom_name hname, findFrom]
    cases d.isDirectoryPlace (here ++ [component])
    · cases d.files.lookup (here ++ [component]) <;> rfl
    · rfl

/-- A component leads to a file if it names one. -/
theorem findFrom_singleton_file_iff :
    d.findFrom here [component] = .ok (.file place bytes) ↔
      IsName component ∧ place = here ++ [component] ∧ d.isDirectoryPlace place = false ∧
        d.files.lookup place = some bytes := by
  constructor
  · intro h
    rcases component_cases component with hskip | rfl | rfl | hname
    · rw [findFrom_skip hskip] at h
      cases h
    · rw [findFrom_root] at h
      cases h
    · rw [findFrom_up] at h
      cases h
    · rw [findFrom_name hname] at h
      split at h
      · cases h
      · next hdirectory =>
        split at h
        · next bytes' hlookup =>
          cases h
          exact ⟨hname, rfl, Bool.eq_false_iff.mpr hdirectory, hlookup⟩
        · cases h
  · rintro ⟨hname, rfl, hdirectory, hlookup⟩
    rw [findFrom_name hname, hdirectory, hlookup]
    rfl

/-- A component that leads nowhere names something that is not there. -/
theorem findFrom_singleton_missing (h : d.findFrom here [component] = .error .missing) :
    IsName component ∧ d.isDirectoryPlace (here ++ [component]) = false ∧
      d.files.lookup (here ++ [component]) = none := by
  rcases component_cases component with hskip | rfl | rfl | hname
  · rw [findFrom_skip hskip] at h
    cases h
  · rw [findFrom_root] at h
    cases h
  · rw [findFrom_up] at h
    cases h
  · rw [findFrom_name hname] at h
    split at h
    · cases h
    · next hdirectory =>
      split at h
      · cases h
      · next hlookup => exact ⟨hname, Bool.eq_false_iff.mpr hdirectory, hlookup⟩

theorem findFrom_append {a : List Text} (h : d.findFrom here a = .ok (.directory place))
    (b : List Text) : d.findFrom here (a ++ b) = d.findFrom place b := by
  induction a generalizing here with
  | nil =>
    cases h
    rfl
  | cons component rest ih =>
    rw [findFrom_cons] at h
    rw [List.cons_append, findFrom_cons]
    split at h
    · exact ih h
    · split at h <;> cases h
    · cases h

/-- A path to a file leads to the directory of the file before. -/
theorem findFrom_concat {a : List Text}
    (h : d.findFrom here (a ++ [component]) = .ok (.file place bytes)) :
    ∃ directory, d.findFrom here a = .ok (.directory directory) ∧
      d.findFrom directory [component] = .ok (.file place bytes) := by
  induction a generalizing here with
  | nil => exact ⟨here, rfl, h⟩
  | cons first rest ih =>
    rw [List.cons_append, findFrom_cons] at h
    rw [findFrom_cons]
    split at h
    · exact ih h
    · cases rest <;> cases h
    · cases h

/-- A path to a file: the directory it leads through, and the name of the file in it. -/
theorem findFrom_file_cases {path : List Text}
    (h : d.findFrom here path = .ok (.file place bytes)) :
    ∃ above component directory, path = above ++ [component] ∧
      d.findFrom here above = .ok (.directory directory) ∧ IsName component ∧
      place = directory ++ [component] ∧ d.isDirectoryPlace place = false ∧
      d.files.lookup place = some bytes := by
  rcases List.eq_nil_or_concat path with rfl | ⟨above, component, rfl⟩
  · cases h
  · rw [List.concat_eq_append] at h ⊢
    obtain ⟨directory, habove, hlast⟩ := findFrom_concat h
    exact ⟨above, component, directory, rfl, habove, findFrom_singleton_file_iff.mp hlast⟩

/-! ### Growing -/

/-- A disk on which all directories and files of another one are, files perhaps with other
contents. The working directory is the same. -/
structure Grows (d d' : Disk) : Prop where
  start : d'.start = d.start
  directory {place : Place} (h : d.isDirectoryPlace place = true) :
    d'.isDirectoryPlace place = true
  file {place : Place} {bytes : Bytes} (hdirectory : d.isDirectoryPlace place = false)
    (hlookup : d.files.lookup place = some bytes) :
    d'.isDirectoryPlace place = false ∧ ∃ bytes', d'.files.lookup place = some bytes'

namespace Grows

theorem refl (d : Disk) : Grows d d := ⟨rfl, id, fun h h' => ⟨h, _, h'⟩⟩

theorem trans {d'' : Disk} (h : Grows d d') (h' : Grows d' d'') : Grows d d'' := by
  refine ⟨h'.start.trans h.start, fun hdirectory => h'.directory (h.directory hdirectory),
    fun hdirectory hlookup => ?_⟩
  obtain ⟨hdirectory, bytes, hlookup⟩ := h.file hdirectory hlookup
  exact h'.file hdirectory hlookup

theorem findFrom_directory (h : Grows d d') {path : List Text}
    (hfind : d.findFrom here path = .ok (.directory place)) :
    d'.findFrom here path = .ok (.directory place) := by
  induction path generalizing here with
  | nil => exact hfind
  | cons component rest ih =>
    rcases component_cases component with hskip | rfl | rfl | hname
    · rw [findFrom_skip hskip] at hfind ⊢
      exact ih hfind
    · rw [findFrom_root] at hfind ⊢
      exact ih hfind
    · rw [findFrom_up] at hfind ⊢
      exact ih hfind
    · rw [findFrom_name hname] at hfind ⊢
      split at hfind
      · next hdirectory =>
        rw [if_pos (h.directory hdirectory)]
        exact ih hfind
      · split at hfind
        · split at hfind <;> cases hfind
        · cases hfind

theorem findFrom_file (h : Grows d d') {path : List Text}
    (hfind : d.findFrom here path = .ok (.file place bytes)) :
    ∃ bytes', d'.findFrom here path = .ok (.file place bytes') := by
  obtain ⟨above, component, directory, rfl, habove, hname, rfl, hdirectory, hlookup⟩ :=
    findFrom_file_cases hfind
  obtain ⟨hdirectory, bytes', hlookup⟩ := h.file hdirectory hlookup
  refine ⟨bytes', ?_⟩
  rw [findFrom_append (h.findFrom_directory habove)]
  exact findFrom_singleton_file_iff.mpr ⟨hname, rfl, hdirectory, hlookup⟩

theorem follow_directory (h : Grows d d') {path : List Text}
    (hfind : d.follow path = .ok (.directory place)) : d'.follow path = .ok (.directory place) := by
  rw [follow, h.start]
  exact h.findFrom_directory hfind

theorem follow_file (h : Grows d d') {path : List Text}
    (hfind : d.follow path = .ok (.file place bytes)) :
    ∃ bytes', d'.follow path = .ok (.file place bytes') := by
  rw [follow, h.start]
  exact h.findFrom_file hfind

end Grows

/-- The file that a path leads to has what its place holds. -/
theorem lookup_of_findFrom_file {path : List Text}
    (h : d.findFrom here path = .ok (.file place bytes)) : d.files.lookup place = some bytes := by
  obtain ⟨_, _, _, _, _, _, _, _, hlookup⟩ := findFrom_file_cases h
  exact hlookup

/-! ### Making directories -/

/-- What is put down in a directory goes to a place that holds nothing yet. -/
theorem placeIn?_of_missing {components : List Text}
    (hfind : d.follow components = .error .missing)
    (hplace : d.placeIn? components = some place) :
    ∃ above component directory, components = above ++ [component] ∧
      d.follow above = .ok (.directory directory) ∧ IsName component ∧
      place = directory ++ [component] ∧ d.isDirectoryPlace place = false ∧
      d.files.lookup place = none := by
  rcases List.eq_nil_or_concat components with rfl | ⟨above, component, rfl⟩
  · cases hfind
  · rw [List.concat_eq_append] at hfind hplace ⊢
    simp only [placeIn?, List.dropLast_concat, List.getLast?_concat] at hplace
    split at hplace
    · next directory name habove hname =>
      cases hname
      cases hplace
      rw [follow, findFrom_append habove] at hfind
      obtain ⟨hname, hdirectory, hlookup⟩ := findFrom_singleton_missing hfind
      exact ⟨above, component, directory, rfl, habove, hname, rfl, hdirectory, hlookup⟩
    · cases hplace

theorem isDirectoryPlace_append (d : Disk) (made other : Place) :
    { d with directories := d.directories ++ [made] : Disk }.isDirectoryPlace other =
      (d.isDirectoryPlace other || other == made) := by
  simp only [isDirectoryPlace, List.contains_append, List.contains_cons, List.contains_nil,
    Bool.or_false, Bool.or_assoc]

theorem makeDirectory_eq_ok {components : List Text} (h : d.makeDirectory components = .ok d') :
    Grows d d' ∧ d'.files = d.files := by
  simp only [makeDirectory] at h
  split at h
  · cases h
  · cases h
  · next hfind =>
    split at h
    · next made hmade =>
      cases h
      obtain ⟨_, _, _, _, _, _, _, _, hfree⟩ := placeIn?_of_missing hfind hmade
      refine ⟨⟨rfl, fun hdirectory => ?_, fun {place bytes} hdirectory hlookup =>
        ⟨?_, bytes, hlookup⟩⟩, rfl⟩
      · rw [isDirectoryPlace_append, hdirectory, Bool.true_or]
      · have hother : place ≠ made := by
          rintro rfl
          rw [hfree] at hlookup
          cases hlookup
        rw [isDirectoryPlace_append, hdirectory, Bool.false_or, beq_eq_false_iff_ne]
        exact hother
    · cases h

theorem ensureDirectory_eq_ok {components : List Text}
    (h : d.ensureDirectory components = .ok d') : Grows d d' ∧ d'.files = d.files := by
  simp only [ensureDirectory] at h
  split at h
  · split at h
    · cases h
      exact ⟨.refl d, rfl⟩
    · cases h
  · exact makeDirectory_eq_ok h

/-- Making directories changes no file, and takes the place of none. -/
theorem ensureDirectories_grows (d : Disk) (components : List Text) :
    Grows d (d.ensureDirectories components).1 ∧
      (d.ensureDirectories components).1.files = d.files := by
  induction components with
  | nil => exact ⟨.refl d, rfl⟩
  | cons last above ih =>
    simp only [ensureDirectories]
    split
    · next h => exact ensureDirectory_eq_ok h
    · split
      · next d' fault h =>
        rw [h] at ih
        exact ih
      · next d' h =>
        rw [h] at ih
        split
        · next h' =>
          obtain ⟨hgrows, hfiles⟩ := ensureDirectory_eq_ok h'
          exact ⟨ih.1.trans hgrows, hfiles.trans ih.2⟩
        · exact ih
    · exact ⟨.refl d, rfl⟩

/-! ### Writing files -/

theorem lookup_filter_ne (files : List (Place × Bytes)) (place other : Place) :
    (files.filter (·.1 ≠ place)).lookup other =
      if other = place then none else files.lookup other := by
  induction files with
  | nil => simp
  | cons file files ih =>
    obtain ⟨first, bytes⟩ := file
    by_cases hfirst : first = place
    · rw [List.filter_cons_of_neg (by simpa using hfirst), ih]
      split
      · rfl
      · next hother => rw [List.lookup_cons, beq_eq_false_iff_ne.mpr (hfirst ▸ hother)]
    · rw [List.filter_cons_of_pos (by simpa using hfirst), List.lookup_cons, List.lookup_cons, ih]
      by_cases hother : other = first
      · have hkept : other ≠ place := hother ▸ hfirst
        rw [beq_iff_eq.mpr hother, if_neg hkept, if_neg hkept]
      · rw [beq_eq_false_iff_ne.mpr hother]

theorem lookup_put (d : Disk) (place other : Place) (bytes : Bytes) :
    (d.put place bytes).files.lookup other =
      if other = place then some bytes else d.files.lookup other := by
  simp only [put, List.lookup_append, lookup_filter_ne, List.lookup_cons, List.lookup_nil]
  by_cases hother : other = place
  · simp [hother]
  · simp [hother, beq_eq_false_iff_ne.mpr hother]

theorem put_grows (d : Disk) (place : Place) (bytes : Bytes) : Grows d (d.put place bytes) := by
  refine ⟨rfl, id, fun {other} bytes' hother hlookup => ⟨hother, ?_⟩⟩
  rw [lookup_put]
  split
  · exact ⟨bytes, rfl⟩
  · exact ⟨bytes', hlookup⟩

/-- A file that is written stands where its path leads, and every other file is as it was. -/
theorem write_eq_ok {components : List Text} (h : d.write components bytes = .ok d') :
    Grows d d' ∧ ∃ place, d'.follow components = .ok (.file place bytes) ∧
      ∀ other, d'.files.lookup other =
        if other = place then some bytes else d.files.lookup other := by
  simp only [write] at h
  split at h
  · next place bytes' hfind =>
    cases h
    obtain ⟨bytes'', hfind'⟩ := (put_grows d place bytes).follow_file hfind
    have hlookup := lookup_of_findFrom_file hfind'
    rw [lookup_put, if_pos rfl, Option.some.injEq] at hlookup
    exact ⟨put_grows d place bytes, place, hlookup ▸ hfind', fun other => lookup_put ..⟩
  · cases h
  · cases h
  · next hfind =>
    split at h
    · next place hplace =>
      cases h
      obtain ⟨above, component, directory, rfl, habove, hname, rfl, hdirectory, -⟩ :=
        placeIn?_of_missing hfind hplace
      have hgrows := put_grows d (directory ++ [component]) bytes
      refine ⟨hgrows, _, ?_, fun other => lookup_put ..⟩
      rw [follow, findFrom_append (hgrows.follow_directory habove), findFrom_singleton_file_iff]
      exact ⟨hname, rfl, hdirectory, by rw [lookup_put, if_pos rfl]⟩
    · cases h

end NamespaceMerge.Disk
