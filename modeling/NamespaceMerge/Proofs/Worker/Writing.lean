import NamespaceMerge.Proofs.Disk.Growth
import NamespaceMerge.Worker.Write

/-! What is on the disk after files were written one after the other: at the place of each of them
stand the contents of the last file with that place, and every other file is as it was
(`Worker.writeAll_eq_none`). -/

namespace NamespaceMerge

open Utf8 (Bytes)

/-- The components of the path that a file is written to. -/
def File.components (f : File) : List Text := (Worker.target f).1 ++ (Worker.target f).2

def File.bytes (f : File) : Bytes := Utf8.encode f.contents.toList

namespace Disk

/-- The place that the path of a file leads to, if a file is there. -/
def placeOf? (d : Disk) (f : File) : Option Place :=
  match d.follow f.components with
  | .ok (.file place _) => some place
  | _ => none

/-- Whether the path of a file leads to a file with its contents. -/
def Holds (d : Disk) (f : File) : Prop :=
  ∃ place, d.follow f.components = .ok (.file place f.bytes)

/-- The named files of a list that belong at a place. -/
def filesAt (d : Disk) (place : Place) (files : List File) : List File :=
  files.filter fun f => !f.name.isEmpty && d.placeOf? f == some place

variable {d d' : Disk} {f : File} {place : Place}

theorem placeOf?_eq_some_iff : d.placeOf? f = some place ↔
    ∃ bytes, d.follow f.components = .ok (.file place bytes) := by
  unfold placeOf?
  split
  · next place' bytes h => simp [h]
  · next h => simpa using h place

/-- A file is held if its contents are at the place that its path leads to. -/
theorem holds_iff_lookup :
    d.Holds f ↔ (d.placeOf? f).bind (fun place => d.files.lookup place) = some f.bytes := by
  rw [Option.bind_eq_some_iff]
  constructor
  · rintro ⟨place, hfind⟩
    exact ⟨place, placeOf?_eq_some_iff.mpr ⟨_, hfind⟩, lookup_of_findFrom_file hfind⟩
  · rintro ⟨place, hplace, hlookup⟩
    obtain ⟨bytes, hfind⟩ := placeOf?_eq_some_iff.mp hplace
    obtain rfl := Option.some.inj ((lookup_of_findFrom_file hfind).symm.trans hlookup)
    exact ⟨place, hfind⟩

instance (d : Disk) (f : File) : Decidable (d.Holds f) := decidable_of_iff' _ holds_iff_lookup

theorem Grows.placeOf? (h : Grows d d') (hplace : d.placeOf? f = some place) :
    d'.placeOf? f = some place := by
  obtain ⟨bytes, hfind⟩ := placeOf?_eq_some_iff.mp hplace
  exact placeOf?_eq_some_iff.mpr (h.follow_file hfind)

end Disk

namespace Worker

variable {d d' : Disk} {w w' : Worker} {f : File} {files : List File}

/-- A file that is written is at its place afterwards, and no other file has changed. -/
theorem writeFile_eq_none (h : writeFile d w f = (d', w', none)) :
    Disk.Grows d d' ∧ (f.name ≠ "" → (d'.placeOf? f).isSome) ∧
      ∀ place, d'.files.lookup place =
        ((d'.filesAt place [f]).getLast?.map File.bytes).or (d.files.lookup place) := by
  unfold writeFile at h
  split at h
  · next hname =>
    cases h
    refine ⟨.refl d, fun hne => (hne (String.isEmpty_iff.mp hname)).elim, fun place => ?_⟩
    simp [Disk.filesAt, hname]
  · next hname =>
    have hmade := d.ensureDirectories_grows (target f).1.reverse
    dsimp only at h
    split at h
    · cases h
    · next made hensured =>
      rw [hensured] at hmade
      split at h
      · cases h
      · next written hwritten =>
        rw [Prod.mk.injEq] at h
        obtain ⟨rfl, -⟩ := h
        obtain ⟨hgrows, place, hfind, hlookup⟩ := Disk.write_eq_ok hwritten
        have hplace : written.placeOf? f = some place := Disk.placeOf?_eq_some_iff.mpr ⟨_, hfind⟩
        refine ⟨hmade.1.trans hgrows, fun _ => by rw [hplace]; rfl, fun other => ?_⟩
        rw [hlookup, hmade.2]
        by_cases hother : other = place
        · simp [Disk.filesAt, hname, hplace, hother, File.bytes]
        · simp [Disk.filesAt, hplace, hother, Ne.symm hother]

/-- After files were written, the last one with a place is there. -/
theorem writeAll_eq_none (h : writeAll d w files = (d', w', none)) :
    Disk.Grows d d' ∧ (∀ f ∈ files, f.name ≠ "" → (d'.placeOf? f).isSome) ∧
      ∀ place, d'.files.lookup place =
        ((d'.filesAt place files).getLast?.map File.bytes).or (d.files.lookup place) := by
  induction files generalizing d w with
  | nil =>
    cases h
    exact ⟨.refl _, by simp, fun place => by simp [Disk.filesAt]⟩
  | cons f files ih =>
    rw [writeAll] at h
    split at h
    · next d₁ w₁ hfirst =>
      obtain ⟨hgrows, hplace, hlookup⟩ := writeFile_eq_none hfirst
      obtain ⟨hgrows', hplace', hlookup'⟩ := ih h
      refine ⟨hgrows.trans hgrows', ?_, fun place => ?_⟩
      · intro g hg hname
        rcases List.mem_cons.mp hg with rfl | hg
        · obtain ⟨place, hplace⟩ := Option.isSome_iff_exists.mp (hplace hname)
          rw [hgrows'.placeOf? hplace]
          rfl
        · exact hplace' g hg hname
      · have hfiles : d'.filesAt place (f :: files) =
            d₁.filesAt place [f] ++ d'.filesAt place files := by
          rw [← List.singleton_append, Disk.filesAt, List.filter_append]
          congr 1
          refine List.filter_congr fun g hg => ?_
          obtain rfl := List.mem_singleton.mp hg
          cases hname : g.name.isEmpty with
          | true => simp
          | false =>
            have hne : g.name ≠ "" := fun h => by simp [h] at hname
            obtain ⟨place, hplace⟩ := Option.isSome_iff_exists.mp (hplace hne)
            rw [hplace, hgrows'.placeOf? hplace]
        rw [hlookup', hlookup, hfiles, List.getLast?_append, Option.map_or, Option.or_assoc]
    · cases h

end Worker

end NamespaceMerge
