import Reckon.Failure
import Reckon.Text.Path

/-!
Files that hold data. A path is followed component by component, from the directory that paths begin
in or from the root, and every component but the last must be a directory. Directories are what the
files' own paths pass through, and whatever is above. Main statements: names lead from a place to
the file below it that they name (`walk_place`), and from the root for an absolute path
(`read_absolute`).
-/

namespace Reckon

/-- Files by path, with the data they hold. -/
abbrev Files := Table Data

namespace Files

/-- The file at a place, if there is one. -/
def at? (files : Files) (place : List String) : Option Data :=
  (files.find? fun file => Text.place file.1 == place).map Prod.snd

/-- Whether a place is a directory: where paths begin, what is above, or what leads to a file. -/
def isDirectory (files : Files) (place : List String) : Bool :=
  place.all (fun c => c == ".." || c == "/") ||
    files.any fun file => place.isSuffixOf (Text.place file.1) && place != Text.place file.1

/-- Follows components from a place that exists. -/
def walk (files : Files) (place : List String) : List String → Except Fault Data
  | [] => (files.at? place).elim (.error .isDirectory) .ok
  | c :: cs =>
    if !files.isDirectory place then .error .notDirectory
    else if Text.isStep c then walk files (Text.step place c) cs
    else if Text.isLongName c then .error .nameTooLong
    else
      let next := c :: place
      if files.isDirectory next || (files.at? next).isSome then walk files next cs
      else .error .noFile

/-- The data of the file at a path. The empty path leads nowhere. -/
def read (files : Files) (path : String) : Except Fault Data :=
  if path.isEmpty then .error .noFile
  else if path.toList.contains '\x00' then .error .nulInside
  else if Text.isLongPath path then .error .nameTooLong
  else files.walk (Text.start path) (Text.components path)

/-- What leads to a file is a directory. -/
theorem isDirectory_of_at? {files : Files} {place rest : List String} {d : Data}
    (h : files.at? (rest ++ place) = some d) (nonempty : rest ≠ []) :
    files.isDirectory place = true := by
  obtain ⟨file, found, -⟩ := Option.map_eq_some_iff.mp h
  have leads : Text.place file.1 = rest ++ place := by
    simpa using List.find?_some found
  have passes : (place.isSuffixOf (Text.place file.1) && place != Text.place file.1) = true := by
    rw [leads, Bool.and_eq_true, List.isSuffixOf_iff_suffix, bne_iff_ne]
    refine ⟨List.suffix_append rest place, ?_⟩
    intro same
    exact nonempty (List.self_eq_append_left.mp same)
  rw [isDirectory, List.any_eq_true.mpr ⟨file, List.mem_of_find?_eq_some found, passes⟩,
    Bool.or_true]

/-- Names lead from a place to the file below it that they name. -/
theorem walk_place {files : Files} {cs : List String} {place : List String} {d : Data}
    (names : ∀ c ∈ cs, Text.isStep c = false ∧ Text.isLongName c = false)
    (h : files.at? (cs.reverse ++ place) = some d) : files.walk place cs = .ok d := by
  induction cs generalizing place with
  | nil =>
    rw [walk, ← List.nil_append place, ← List.reverse_nil, h]
    rfl
  | cons c cs ih =>
    obtain ⟨⟨unstepped, short⟩, names⟩ := List.forall_mem_cons.mp names
    have above := isDirectory_of_at? h (by simp)
    rw [List.reverse_cons, List.append_assoc, List.singleton_append] at h
    have next : (files.isDirectory (c :: place) || (files.at? (c :: place)).isSome) = true := by
      cases cs with
      | nil =>
        rw [List.reverse_nil, List.nil_append] at h
        rw [h, Option.isSome_some, Bool.or_true]
      | cons c' cs => rw [isDirectory_of_at? h (by simp), Bool.true_or]
    simp only [walk, above, unstepped, short, next, Bool.not_true, Bool.false_eq_true, if_false,
      if_true]
    exact ih names h

/-- A path from the root is followed from there on. -/
theorem walk_root (files : Files) (cs : List String) :
    files.walk ["/"] ("" :: cs) = files.walk ["/"] cs := by
  rw [walk]
  rfl

/-- The file that names lead to from the root is read by its path. -/
theorem read_absolute {files : Files} {path : String} {cs : List String} {d : Data}
    (unbroken : path.toList.contains '\x00' = false) (short : Text.isLongPath path = false)
    (root : Text.start path = ["/"]) (parts : Text.components path = "" :: cs)
    (names : ∀ c ∈ cs, Text.isStep c = false ∧ Text.isLongName c = false)
    (h : files.at? (cs.reverse ++ ["/"]) = some d) : files.read path = .ok d := by
  have nonempty : path.isEmpty = false := by
    rw [Bool.eq_false_iff, ne_eq, String.isEmpty_iff]
    rintro rfl
    cases root
  simp only [read, nonempty, unbroken, short, root, parts, Bool.false_eq_true, if_false]
  rw [walk_root]
  exact walk_place names h

end Files
end Reckon
