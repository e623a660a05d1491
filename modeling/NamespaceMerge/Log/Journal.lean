import NamespaceMerge.Disk.Fault
import NamespaceMerge.Log.Basic
import NamespaceMerge.Options.Table

/-! The journal of a run: the entries of its log, and the failures that it recorded. Recording a
failure also enters its message into the log. -/

namespace NamespaceMerge

inductive Failure
  | unreadable (item : String) (fault : DiskFault)
  | unparsable (path message : String)
  /-- A failure that a caller reports, of a named kind if it is not a general one. -/
  | reported (kind : Option String) (message : String)

def Failure.message : Failure → String
  | unreadable item fault => s!"Unable to read '{item}': {fault.message}"
  | unparsable path message => s!"Unable to parse '{path}': {message}"
  | reported _ message => message

structure Journal where
  entries : List Entry := []
  failures : List Failure := []

namespace Journal

def log (j : Journal) (entry : Entry) : Journal := { j with entries := j.entries ++ [entry] }

/-- Records a failure. -/
def fail (j : Journal) (failure : Failure) : Journal :=
  { entries := j.entries ++ [{ message := failure.message, level := .error }]
    failures := j.failures ++ [failure] }

/-- The journal of one part of a run, followed by that of the next. -/
def append (j k : Journal) : Journal :=
  { entries := j.entries ++ k.entries, failures := j.failures ++ k.failures }

instance : Append Journal := ⟨append⟩

@[simp] theorem entries_append (j k : Journal) : (j ++ k).entries = j.entries ++ k.entries := rfl

@[simp] theorem failures_append (j k : Journal) : (j ++ k).failures = j.failures ++ k.failures :=
  rfl

theorem append_empty (j : Journal) : j ++ ({} : Journal) = j := by
  show Journal.mk (j.entries ++ []) (j.failures ++ []) = j
  rw [List.append_nil, List.append_nil]

theorem append_assoc (i j k : Journal) : i ++ j ++ k = i ++ (j ++ k) := by
  show Journal.mk (i.entries ++ j.entries ++ k.entries) (i.failures ++ j.failures ++ k.failures) =
    Journal.mk (i.entries ++ (j.entries ++ k.entries)) (i.failures ++ (j.failures ++ k.failures))
  rw [List.append_assoc, List.append_assoc]

theorem fail_append (j k : Journal) (failure : Failure) :
    (j ++ k).fail failure = j ++ k.fail failure := by
  show Journal.mk (j.entries ++ k.entries ++ _) (j.failures ++ k.failures ++ _) =
    Journal.mk (j.entries ++ (k.entries ++ _)) (j.failures ++ (k.failures ++ _))
  rw [List.append_assoc, List.append_assoc]

end Journal

end NamespaceMerge
