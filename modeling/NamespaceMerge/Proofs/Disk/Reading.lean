import NamespaceMerge.Disk.Reading
import NamespaceMerge.Proofs.Disk.Growth
import NamespaceMerge.Proofs.File.Name
import NamespaceMerge.Proofs.Json.Keyed
import NamespaceMerge.Proofs.Text.Utf8

/-! What is read from a disk. A file that is read from a path has the name at the end of the path
and the directory before it (`readFile_eq_ok`); a map is looked up from the place of a directory,
however the directory is spelled (`find_mapPath`). -/

namespace NamespaceMerge

theorem Text.unifyLineEnds_eq_self {text : Text} (h : '\r' ∉ text) :
    Text.unifyLineEnds text = text := by
  fun_induction Text.unifyLineEnds text with
  | case1 rest ih => exact (h List.mem_cons_self).elim
  | case2 c rest _ ih =>
    obtain ⟨hc, hrest⟩ := List.ne_and_not_mem_of_not_mem_cons h
    rw [ih hrest, if_neg (Ne.symm hc)]
  | case3 => rfl

namespace Disk

open Utf8 (Bytes)

variable {d : Disk} {here place : Place} {path directory : Text} {f : File}

/-- Components that say nothing may be left out of a path to a directory. -/
theorem findFrom_filter {components : List Text}
    (h : d.findFrom here (components.filter (!FileName.saysNothing ·)) = .ok (.directory place)) :
    d.findFrom here components = .ok (.directory place) := by
  induction components generalizing here with
  | nil => exact h
  | cons component rest ih =>
    by_cases hskip : component = [] ∨ component = ['.']
    · rw [findFrom_skip hskip]
      have hfilter : ¬ (!FileName.saysNothing component) = true := by
        rcases hskip with rfl | rfl <;> decide
      rw [List.filter_cons, if_neg hfilter] at h
      exact ih h
    · have hfilter : (!FileName.saysNothing component) = true := by
        simpa [FileName.saysNothing] using hskip
      rw [List.filter_cons, if_pos hfilter, findFrom_cons] at h
      rw [findFrom_cons]
      split at h
      · exact ih h
      · split at h <;> cases h
      · cases h

/-- A path leads where its components lead. -/
theorem find_normalize (d : Disk) (path : Text) :
    d.find (FileName.normalize path) = d.follow (FileName.components path) := by
  have hnames : ∀ c ∈ FileName.names path, '/' ∉ c := fun c => FileName.notMem_of_mem_names
  by_cases hslash : path.head? = some '/'
  · obtain ⟨rest, rfl⟩ := List.head?_eq_some_iff.mp hslash
    rw [FileName.names_slash] at hnames
    rw [FileName.normalize, FileName.components_slash, FileName.ofComponents_root hnames, find,
      FileName.split, follow, follow, findFrom_root, findFrom_root]
    by_cases hne : FileName.names rest = []
    · rw [hne]
      exact findFrom_skip (.inl rfl) []
    · rw [Text.splitAll_join hnames hne]
  · rw [FileName.normalize, FileName.components_of_relative hslash]
    by_cases hne : FileName.names path = []
    · rw [hne]
      exact findFrom_skip (.inr rfl) []
    · rw [FileName.ofComponents_of_names hnames hne, find,
        FileName.split_join hnames hne fun c => FileName.ne_nil_of_mem_names]

/-- A text without returns is read back from its bytes. -/
theorem textOf_encode {text : Text} (h : '\r' ∉ text) : textOf (Utf8.encode text) = .ok text := by
  rw [textOf, Utf8.decode_encode]
  exact congrArg Except.ok (Text.unifyLineEnds_eq_self h)

/-- The file that is read from a path. -/
theorem readFile_eq_ok (h : d.readFile path = .ok f) :
    ∃ place bytes text, d.find (FileName.normalize path) = .ok (.file place bytes) ∧
      textOf bytes = .ok text ∧
      f = { contents := String.ofList text
            name := String.ofList ((FileName.components path).getLast?.getD [])
            path := String.ofList (FileName.directory path)
            size := some text.length } := by
  obtain ⟨bytes, hbytes, h⟩ := bind_eq_ok_iff.mp h
  obtain ⟨text, htext, h⟩ := bind_eq_ok_iff.mp h
  cases h
  rw [mapError_eq_ok_iff, read] at hbytes
  split at hbytes
  · next place found hfind =>
    cases hbytes
    exact ⟨place, bytes, text, hfind, mapError_eq_ok_iff.mp htext, rfl⟩
  · cases hbytes
  · cases hbytes

/-- A path goes on from the directory in front of a separator. -/
theorem find_append {a : Text} (h : d.follow (FileName.components (a ++ ['/'])) =
      .ok (.directory place)) (url : Text) :
    d.find (a ++ '/' :: url) = d.findFrom place (Text.splitAll '/' url) := by
  obtain ⟨front, hsplit, hfront⟩ := FileName.exists_split_append a
  rw [hfront] at h
  rw [find, hsplit]
  exact findFrom_append (findFrom_filter h) _

/-- A url is followed from the place of the directory. -/
theorem find_mapPath (h : d.follow (FileName.components directory) = .ok (.directory place))
    (url : Text) :
    d.find (mapPath directory url) = d.findFrom place (FileName.split url) := by
  let base := if directory.isEmpty then ['.'] else directory
  have hbase : d.follow (FileName.components base) = .ok (.directory place) ∧ base ≠ [] := by
    cases directory with
    | nil => exact ⟨h, List.cons_ne_nil _ _⟩
    | cons c directory => exact ⟨h, List.cons_ne_nil _ _⟩
  change d.find (if url.head? = some '/' then url
    else if base.getLast? = some '/' then base ++ url else base ++ '/' :: url) = _
  split
  · next hslash =>
    obtain ⟨rest, rfl⟩ := List.head?_eq_some_iff.mp hslash
    rw [find, FileName.split, follow, findFrom_root, findFrom_root]
  · next hslash =>
    rw [FileName.split_of_relative hslash]
    split
    · next hlast =>
      obtain ⟨front, hfront⟩ := List.getLast?_eq_some_iff.mp hlast
      rw [hfront] at hbase
      rw [hfront, List.append_assoc, List.singleton_append, find_append hbase.1]
    · refine find_append ?_ url
      rw [FileName.components_concat_slash hbase.2]
      exact hbase.1

/-- Two spellings of one directory have the same maps. -/
theorem mapLoader_eq {directory' : Text}
    (h : d.follow (FileName.components directory) = .ok (.directory place))
    (h' : d.follow (FileName.components directory') = .ok (.directory place)) :
    d.mapLoader directory = d.mapLoader directory' := by
  funext url
  rw [mapLoader, mapLoader, readMap?, readMap?, find_mapPath h, find_mapPath h']

end Disk

end NamespaceMerge
