import NamespaceMerge.Proofs.Disk.Reading
import NamespaceMerge.Proofs.Worker.Writing

/-! When files can be written one after the other. Whether a disk takes a file is asked for each
file alone (`Disk.placeFor?`); where all directories are there, or all files go to one, a disk that
takes each of them at a place of its own takes them all, and holds them all afterwards
(`Worker.writeAll_of_takes`). -/

namespace NamespaceMerge

namespace FileName

/-- A path has the components of its directory, and perhaps a last one. -/
theorem components_directory (path : Text) :
    components path = components (directory path) ∨
      ∃ last, components path = components (directory path) ++ [last] := by
  have hname (name : Text) (h : '/' ∉ name) : names name = [] ∨ names name = [name] := by
    rw [names, Text.splitAll_of_notMem h, List.filter_singleton]
    cases !saysNothing name
    · exact .inl rfl
    · exact .inr rfl
  by_cases hslash : '/' ∈ path
  · obtain ⟨a, name, rfl, hnot⟩ := Text.exists_eq_append_cons_of_mem hslash
    rw [components_append_slash, components_directory_append a hnot]
    rcases hname name hnot with h | h
    · exact .inl (by rw [h, List.append_nil])
    · exact .inr ⟨name, by rw [h]⟩
  · rw [directory_of_notMem hslash, components_nil,
      components_of_relative (head?_ne_slash hslash)]
    rcases hname path hslash with h | h
    · exact .inl h
    · exact .inr ⟨path, h⟩

end FileName

namespace Disk

variable {d d' made : Disk} {f g : File} {place other : Place} {components : List Text}
  {files : List File}

/-! ### Directories that are made -/

theorem makeDirectory_found (h : d.makeDirectory components = .ok d') :
    ∃ place, d'.follow components = .ok (.directory place) := by
  have hgrows := (makeDirectory_eq_ok h).1
  simp only [makeDirectory] at h
  split at h
  · cases h
  · cases h
  · next hfind =>
    split at h
    · next place hplace =>
      cases h
      obtain ⟨above, component, directory, rfl, habove, hname, rfl, -, -⟩ :=
        placeIn?_of_missing hfind hplace
      refine ⟨directory ++ [component], ?_⟩
      rw [follow, findFrom_append (hgrows.follow_directory habove), findFrom_name hname,
        isDirectoryPlace_append, beq_self_eq_true, Bool.or_true]
      rfl
    · cases h

theorem ensureDirectory_found (h : d.ensureDirectory components = .ok d') :
    ∃ place, d'.follow components = .ok (.directory place) := by
  simp only [ensureDirectory] at h
  split at h
  · split at h
    · next place hfind =>
      cases h
      exact ⟨place, hfind⟩
    · cases h
  · exact makeDirectory_found h

/-- A directory that was made is there. -/
theorem ensureDirectories_found (h : d.ensureDirectories components.reverse = (d', none)) :
    ∃ place, d'.follow components = .ok (.directory place) := by
  generalize hreverse : components.reverse = reversed at h
  obtain rfl : components = reversed.reverse := by rw [← hreverse, List.reverse_reverse]
  cases reversed with
  | nil =>
    cases h
    exact ⟨d.start, rfl⟩
  | cons last above =>
    simp only [ensureDirectories] at h
    split at h
    · next hmade =>
      cases h
      exact ensureDirectory_found hmade
    · split at h
      · cases h
      · split at h
        · next hmade =>
          cases h
          exact ensureDirectory_found hmade
        · cases h
    · cases h

/-- A directory that is there is not made again. -/
theorem ensureDirectories_of_found (h : d.follow components = .ok (.directory place)) :
    d.ensureDirectories components.reverse = (d, none) := by
  generalize hreverse : components.reverse = reversed
  obtain rfl : components = reversed.reverse := by rw [← hreverse, List.reverse_reverse]
  cases reversed with
  | nil => rfl
  | cons last above =>
    have hensure : d.ensureDirectory (last :: above).reverse = .ok d := by
      simp only [ensureDirectory, makeDirectory, h]
    simp only [ensureDirectories, hensure]

/-! ### Files that can be put -/

/-- The path of a file leads to a place in a directory, and no directory is there. -/
structure Ready (d : Disk) (f : File) (place : Place) : Prop where
  directory : ∃ base, d.follow (Worker.target f).1 = .ok (.directory base)
  path : ∃ above component base, f.components = above ++ [component] ∧
    d.follow above = .ok (.directory base) ∧ IsName component ∧ place = base ++ [component]
  free : d.isDirectoryPlace place = false

namespace Ready

theorem put (h : d.Ready f place) (other : Place) (bytes : Utf8.Bytes) :
    (d.put other bytes).Ready f place := by
  have hgrows := put_grows d other bytes
  obtain ⟨base, hdirectory⟩ := h.directory
  obtain ⟨above, component, base', hcomponents, habove, hplace⟩ := h.path
  exact ⟨⟨base, hgrows.follow_directory hdirectory⟩,
    ⟨above, component, base', hcomponents, hgrows.follow_directory habove, hplace⟩, h.free⟩

/-- A file that is ready can be written. -/
theorem write (h : d.Ready f place) : d.write f.components f.bytes = .ok (d.put place f.bytes) := by
  obtain ⟨above, component, base, hcomponents, habove, hname, rfl⟩ := h.path
  simp only [Disk.write, hcomponents, follow, findFrom_append habove, findFrom_name hname, h.free]
  cases hlookup : d.files.lookup (base ++ [component]) with
  | some bytes => rfl
  | none => simp [placeIn?, habove]

theorem holds (h : d.Ready f place) (hlookup : d.files.lookup place = some f.bytes) :
    d.follow f.components = .ok (.file place f.bytes) := by
  obtain ⟨above, component, base, hcomponents, habove, hname, rfl⟩ := h.path
  rw [hcomponents, follow, findFrom_append habove, findFrom_singleton_file_iff]
  exact ⟨hname, rfl, h.free, hlookup⟩

theorem name_ne (h : d.Ready f place) : f.name ≠ "" := by
  intro hname
  have hcomponents : f.components = (Worker.target f).1 := by
    rw [File.components, Worker.target, hname]
    exact List.append_nil _
  obtain ⟨base, hdirectory⟩ := h.directory
  obtain ⟨above, component, base', habove, hfind, hcomponent, rfl⟩ := h.path
  rw [← hcomponents, habove, follow, findFrom_append hfind, findFrom_name hcomponent,
    h.free] at hdirectory
  simp only [Bool.false_eq_true, if_false] at hdirectory
  split at hdirectory <;> cases hdirectory

end Ready

/-- The place at which a file stands after it alone was written, if it can be written. -/
def placeFor? (d : Disk) (f : File) : Option Place :=
  match d.ensureDirectories (Worker.target f).1.reverse with
  | (made, none) =>
    match made.write f.components f.bytes with
    | .ok written => written.placeOf? f
    | .error _ => none
  | (_, some _) => none

theorem ready_of_write (hdirectory : made.follow (Worker.target f).1 = .ok (.directory other))
    (h : made.write f.components f.bytes = .ok d') (hplace : d'.placeOf? f = some place) :
    made.Ready f place := by
  have hready : ∃ p, made.Ready f p ∧ d' = made.put p f.bytes := by
    simp only [Disk.write] at h
    split at h
    · next p bytes hfind =>
      cases h
      obtain ⟨above, component, base, hcomponents, habove, hname, hp, hfree, -⟩ :=
        findFrom_file_cases hfind
      exact ⟨p, ⟨⟨other, hdirectory⟩, ⟨above, component, base, hcomponents, habove, hname, hp⟩,
        hfree⟩, rfl⟩
    · cases h
    · cases h
    · next hfind =>
      split at h
      · next p hin =>
        cases h
        obtain ⟨above, component, base, hcomponents, habove, hname, hp, hfree, -⟩ :=
          placeIn?_of_missing hfind hin
        exact ⟨p, ⟨⟨other, hdirectory⟩, ⟨above, component, base, hcomponents, habove, hname, hp⟩,
          hfree⟩, rfl⟩
      · cases h
  obtain ⟨p, hready, rfl⟩ := hready
  have hfound := (hready.put p f.bytes).holds (by rw [lookup_put, if_pos rfl])
  rw [placeOf?_eq_some_iff.mpr ⟨_, hfound⟩] at hplace
  cases hplace
  exact hready

/-- A file that can be written alone is ready when its directory is made. -/
theorem ready_of_placeFor? (h : d.placeFor? f = some place) :
    ∃ made, d.ensureDirectories (Worker.target f).1.reverse = (made, none) ∧
      made.Ready f place := by
  rw [placeFor?] at h
  split at h
  · next made hmade =>
    split at h
    · next written hwritten =>
      obtain ⟨base, hbase⟩ := ensureDirectories_found hmade
      exact ⟨made, hmade, ready_of_write hbase hwritten h⟩
    · cases h
  · cases h

/-- The disk takes every file, each at a place of its own. -/
def Takes (d : Disk) (files : List File) : Prop :=
  (∀ f ∈ files, (d.placeFor? f).isSome) ∧ (files.map d.placeFor?).Nodup

instance (d : Disk) (files : List File) : Decidable (d.Takes files) :=
  inferInstanceAs (Decidable (_ ∧ _))

theorem Takes.exists_places {files : List File} (h : d.Takes files) :
    ∃ places : List Place, List.Forall₂ (fun f place => d.placeFor? f = some place) files places ∧
      places.Nodup := by
  obtain ⟨htaken, hnodup⟩ := h
  have hplaces : ∃ places : List Place, files.map d.placeFor? = places.map some := by
    clear hnodup
    induction files with
    | nil => exact ⟨[], rfl⟩
    | cons f files ih =>
      obtain ⟨hfirst, hrest⟩ := List.forall_mem_cons.mp htaken
      obtain ⟨place, hplace⟩ := Option.isSome_iff_exists.mp hfirst
      obtain ⟨places, hplaces⟩ := ih hrest
      exact ⟨place :: places, by rw [List.map_cons, List.map_cons, hplace, hplaces]⟩
  obtain ⟨places, hplaces⟩ := hplaces
  refine ⟨places, ?_, List.Nodup.of_map some (hplaces ▸ hnodup)⟩
  have heq : List.Forall₂ Eq (files.map d.placeFor?) (places.map some) :=
    hplaces ▸ List.forall₂_refl _
  exact List.forall₂_map_right_iff.mp (List.forall₂_map_left_iff.mp heq)

end Disk

namespace Worker

variable {d d' made : Disk} {w w' : Worker} {f : File} {files : List File} {place : Place}
  {places : List Place}

/-! ### What writing leaves alone -/

/-- Nothing was recorded as failed in between. -/
structure SameFailures (w w' : Worker) : Prop where
  failed : w'.failed = w.failed
  count : w'.report.failed = w.report.failed

theorem SameFailures.trans {w'' : Worker} (h : SameFailures w w') (h' : SameFailures w' w'') :
    SameFailures w w'' :=
  ⟨h'.failed.trans h.failed, h'.count.trans h.count⟩

theorem sameFailures_log (w : Worker) (message : String) (level : Level) :
    SameFailures w (w.log message level) := ⟨rfl, rfl⟩

theorem sameFailures_announce (w : Worker) (f : File) : SameFailures w (w.announce f) := by
  rw [announce]
  split <;> exact ⟨rfl, rfl⟩

theorem sameFailures_enter (w : Worker) (stage : String) : SameFailures w (w.enter stage) :=
  ⟨rfl, rfl⟩

theorem sameFailures_leave (w : Worker) (stage : String) : SameFailures w (w.leave stage) :=
  ⟨rfl, w.failed_report_leave stage⟩

theorem sameFailures_writeFile (d : Disk) (w : Worker) (f : File) :
    SameFailures w (writeFile d w f).2.1 := by
  rw [writeFile]
  split
  · exact ⟨rfl, rfl⟩
  · dsimp only
    split
    · exact w.sameFailures_announce f
    · split
      · exact w.sameFailures_announce f
      · exact (w.sameFailures_announce f).trans ⟨rfl, rfl⟩

theorem sameFailures_writeAll (d : Disk) (w : Worker) (files : List File) :
    SameFailures w (writeAll d w files).2.1 := by
  induction files generalizing d w with
  | nil => exact ⟨rfl, rfl⟩
  | cons f files ih =>
    have hfirst := sameFailures_writeFile d w f
    rw [writeAll]
    split
    · next d₁ w₁ h =>
      rw [h] at hfirst
      exact hfirst.trans (ih d₁ w₁)
    · next d₁ w₁ fault h =>
      rw [h] at hfirst
      exact hfirst

theorem sameFailures_write (d : Disk) (w : Worker) (files : List File) :
    SameFailures w (write d w files).2.1 :=
  ((w.sameFailures_enter "write").trans (sameFailures_writeAll d _ files)).trans
    (sameFailures_leave _ "write")

/-! ### Writing what can be put -/

theorem writeFile_of_ready (h : made.Ready f place)
    (hmade : d.ensureDirectories (target f).1.reverse = (made, none)) (w : Worker) :
    ∃ w', writeFile d w f = (made.put place f.bytes, w', none) := by
  have hname : f.name.isEmpty = false :=
    Bool.eq_false_iff.mpr fun hempty => h.name_ne (String.isEmpty_iff.mp hempty)
  have hwrite := h.write
  rw [File.components, File.bytes] at hwrite
  simp only [writeFile, hname, hmade, hwrite, File.bytes]
  exact ⟨_, rfl⟩

/-- One file after the other is put at its place; what is ready stays so. -/
theorem writeAll_of_ready (h : List.Forall₂ d.Ready files places) (w : Worker) :
    ∃ d' w', writeAll d w files = (d', w', none) ∧
      (∀ f place, d.Ready f place → d'.Ready f place) ∧
      (∀ place, place ∉ places → d'.files.lookup place = d.files.lookup place) ∧
      (places.Nodup → ∀ f ∈ files, d'.Holds f) := by
  induction files generalizing d w places with
  | nil =>
    cases h
    exact ⟨d, w, rfl, fun _ _ => id, fun _ _ => rfl, fun _ _ hf => by cases hf⟩
  | cons f files ih =>
    obtain _ | @⟨_, place, _, rest, hfirst, hrest⟩ := h
    obtain ⟨base, hdirectory⟩ := hfirst.directory
    obtain ⟨w₁, hput⟩ :=
      writeFile_of_ready hfirst (Disk.ensureDirectories_of_found hdirectory) w
    have hstill (g : File) (p : Place) (hg : d.Ready g p) : (d.put place f.bytes).Ready g p :=
      hg.put place f.bytes
    obtain ⟨d', w', hall, hready, hlookup, hholds⟩ :=
      ih (hrest.imp fun g p hg => hstill g p hg) w₁
    refine ⟨d', w', ?_, fun g p hg => hready g p (hstill g p hg), fun p hp => ?_, ?_⟩
    · rw [writeAll, hput]
      exact hall
    · obtain ⟨hfirst, hp⟩ := not_or.mp (List.mem_cons.not.mp hp)
      rw [hlookup p hp, Disk.lookup_put, if_neg hfirst]
    · intro hnodup g hg
      obtain ⟨hplace, hnodup⟩ := List.nodup_cons.mp hnodup
      rcases List.mem_cons.mp hg with rfl | hg
      · refine ⟨place, (hready g place (hstill g place hfirst)).holds ?_⟩
        rw [hlookup place hplace, Disk.lookup_put, if_pos rfl]
      · exact hholds hnodup g hg

theorem writeAll_of_made (h : d.Takes files)
    (hmade : ∀ f ∈ files, d.ensureDirectories (target f).1.reverse = (made, none)) (w : Worker) :
    ∃ d' w', writeAll d w files = (d', w', none) ∧ ∀ f ∈ files, d'.Holds f := by
  obtain ⟨places, hplaces, hnodup⟩ := h.exists_places
  have hready : List.Forall₂ made.Ready files places := by
    refine ((List.forall₂_and_left _ _).mpr ⟨hmade, hplaces⟩).imp fun f place hf => ?_
    obtain ⟨made', hmade', hready⟩ := Disk.ready_of_placeFor? hf.2
    rw [hf.1] at hmade'
    cases hmade'
    exact hready
  cases files with
  | nil => exact ⟨d, w, rfl, fun f hf => by cases hf⟩
  | cons f files =>
    -- the first file makes the directory; from then on it is there
    have hfirst : writeAll d w (f :: files) = writeAll made w (f :: files) := by
      obtain ⟨place, _, hput, _, _⟩ := List.forall₂_cons_left_iff.mp hready
      obtain ⟨base, hdirectory⟩ := hput.directory
      have hagain := Disk.ensureDirectories_of_found hdirectory
      have hsame : writeFile d w f = writeFile made w f := by
        rw [writeFile, writeFile]
        split
        · next hempty => exact (hput.name_ne (String.isEmpty_iff.mp hempty)).elim
        · simp only [hmade f List.mem_cons_self, hagain]
      rw [writeAll, writeAll, hsame]
    obtain ⟨d', w', hall, -, -, hholds⟩ := writeAll_of_ready hready w
    exact ⟨d', w', hfirst.trans hall, hholds hnodup⟩

/-- A disk on which each file can be written alone takes one after the other, if all directories are
there or all files go to one. -/
theorem writeAll_of_takes (h : d.Takes files)
    (hdirectories : (∀ f ∈ files, ∃ base, d.follow (target f).1 = .ok (.directory base)) ∨
      ∃ directory, ∀ f ∈ files, (target f).1 = directory) (w : Worker) :
    ∃ d' w', writeAll d w files = (d', w', none) ∧ ∀ f ∈ files, d'.Holds f := by
  rcases hdirectories with hfound | ⟨directory, hsame⟩
  · have hmade (f : File) (hf : f ∈ files) :
        d.ensureDirectories (target f).1.reverse = (d, none) := by
      obtain ⟨base, hbase⟩ := hfound f hf
      exact Disk.ensureDirectories_of_found hbase
    exact writeAll_of_made h hmade w
  · cases files with
    | nil => exact ⟨d, w, rfl, fun f hf => by cases hf⟩
    | cons f files =>
      obtain ⟨place, hplace⟩ := Option.isSome_iff_exists.mp (h.1 f List.mem_cons_self)
      obtain ⟨made, hmade, -⟩ := Disk.ready_of_placeFor? hplace
      have hall (g : File) (hg : g ∈ f :: files) :
          d.ensureDirectories (target g).1.reverse = (made, none) := by
        rw [hsame g hg, ← hsame f List.mem_cons_self]
        exact hmade
      exact writeAll_of_made h hall w

end Worker

end NamespaceMerge
