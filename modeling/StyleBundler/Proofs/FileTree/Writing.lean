import StyleBundler.Proofs.Except
import StyleBundler.Proofs.FileTree

/-!
What writing does to a tree. A path has a place to write to that depends on the directories alone
(`writePlace?_congr`), and writing puts a file there and touches nothing else. So of files that are
written one after the other each stands at the place that its path had in the beginning, and what
is at a place is the last of those that lead to it (`Stored.find?_eq`). Making directories adds
directories where nothing was (`extended_makeAll`).
-/

namespace StyleBundler

namespace Text

/-- A text that does not end in a sign ends in a piece that is not empty. -/
theorem exists_splitOn_concat {sign c : Char} (hc : c ≠ sign) (cs : List Char) :
    ∃ front piece, splitOn sign (cs ++ [c]) = front ++ [piece ++ [c]] := by
  induction cs with
  | nil => exact ⟨[], [], by simp [splitOn, hc]⟩
  | cons d cs ih =>
      obtain ⟨front, piece, hsplit⟩ := ih
      simp only [List.cons_append, splitOn, hsplit]
      split
      · exact ⟨[] :: front, piece, rfl⟩
      · cases front with
        | nil => exact ⟨[], d :: piece, rfl⟩
        | cons first front => exact ⟨(d :: first) :: front, piece, rfl⟩

end Text

namespace FileTree

variable {t t' t'' : FileTree} {l l' d : Location} {p : Path} {e : FileEntry}
  {pieces : List (List Char)}

theorem find?_nil (t : FileTree) : t.find? [] = some .directory := rfl

theorem lookup_filter_ne {entries : List (Location × FileEntry)} (h : l' ≠ l) :
    (entries.filter (·.1 != l)).lookup l' = entries.lookup l' := by
  induction entries with
  | nil => rfl
  | cons entry entries ih =>
      obtain ⟨place, e⟩ := entry
      by_cases hplace : place = l
      · rw [List.filter_cons_of_neg (by simp [hplace]), ih, List.lookup_cons, hplace,
          beq_eq_false_iff_ne.mpr h]
      · rw [List.filter_cons_of_pos (by simp [hplace]), List.lookup_cons, List.lookup_cons, ih]

theorem find?_set (t : FileTree) (e : FileEntry) (hl : l ≠ []) (l' : Location) :
    (t.set l e).find? l' = if l' = l then some e else t.find? l' := by
  cases l' with
  | nil => rw [if_neg (Ne.symm hl), find?_nil, find?_nil]
  | cons name rest =>
      simp only [find?, set, List.isEmpty_cons, Bool.false_eq_true, if_false, List.lookup_cons]
      by_cases h : name :: rest = l
      · rw [if_pos h, beq_iff_eq.mpr h]
      · rw [if_neg h, beq_eq_false_iff_ne.mpr h]
        exact lookup_filter_ne h

theorem isDirectoryAt_eq : t.isDirectoryAt l = true ↔ t.find? l = some .directory := by
  unfold isDirectoryAt
  split
  · next h => simp [h]
  · next h => simp only [Bool.false_eq_true, false_iff]; exact h

theorem ne_nil_of_isDirectoryAt (h : t.isDirectoryAt l = false) : l ≠ [] := by
  rintro rfl
  cases h

/-- A file in a place without a directory leaves the directories as they are. -/
theorem isDirectoryAt_set_file (h : t.isDirectoryAt l = false) (content : ByteArray)
    (l' : Location) : (t.set l (.file content)).isDirectoryAt l' = t.isDirectoryAt l' := by
  rw [Bool.eq_iff_iff, isDirectoryAt_eq, isDirectoryAt_eq,
    find?_set t _ (ne_nil_of_isDirectoryAt h)]
  split
  · next heq =>
      rw [heq, ← isDirectoryAt_eq, h]
      simp
  · rfl

theorem follow_append {xs ys : List (List Char)} :
    t.follow l (xs ++ ys) = (t.follow l xs).bind fun d => t.follow d ys := by
  induction xs generalizing l with
  | nil => rfl
  | cons piece xs ih =>
      simp only [List.cons_append, follow]
      split
      · rfl
      · split
        · exact ih
        · split
          · exact ih
          · split
            · rfl
            · split
              · rfl
              · exact ih

/-- Directories lead to the same directories in trees that have the same ones. -/
theorem follow_congr (hdirectories : ∀ l, t'.isDirectoryAt l = t.isDirectoryAt l)
    (h : t.follow l pieces = .ok d) (hd : t.isDirectoryAt d = true) :
    t'.follow l pieces = .ok d := by
  have hsome : ∀ {t : FileTree} {l : Location}, t.isDirectoryAt l = true →
      t.find? l = some .directory := fun h => isDirectoryAt_eq.mp h
  induction pieces generalizing l with
  | nil => exact h
  | cons piece pieces ih =>
      -- Every place on the way to a directory is a directory.
      have hplace : ∀ {l : Location} {pieces : List (List Char)},
          t.follow l pieces = .ok d → t.isDirectoryAt l = true := by
        intro l pieces h
        cases pieces with
        | nil =>
            cases h
            exact hd
        | cons piece pieces =>
            simp only [follow] at h
            split at h
            · cases h
            · next hl => simpa using hl
      have hl := hplace h
      have hl' := (hdirectories l).trans hl
      simp only [follow, hl, hl', Bool.not_true, Bool.false_eq_true, if_false] at h ⊢
      split
      · next hidle =>
          rw [if_pos hidle] at h
          exact ih h
      · next hidle =>
          rw [if_neg hidle] at h
          split
          · next hparent =>
              rw [if_pos hparent] at h
              exact ih h
          · next hparent =>
              rw [if_neg hparent] at h
              split
              · next hlong =>
                  rw [if_pos hlong] at h
                  cases h
              · next hlong =>
                  rw [if_neg hlong] at h
                  split at h
                  · cases h
                  · have hnext := hplace h
                    rw [hsome ((hdirectories _).trans hnext)]
                    exact ih h

/-- The place of the file that writing to a path makes or replaces. -/
def writePlace? (t : FileTree) (p : Path) : Option Location :=
  match t.locateNew p with
  | .ok (directory, some name) =>
      if p.text.toList.getLast? = some '/' ∨ t.isDirectoryAt (directory ++ [name]) then none
      else some (directory ++ [name])
  | _ => none

theorem isDirectoryAt_writePlace? (h : t.writePlace? p = some l) : t.isDirectoryAt l = false := by
  unfold writePlace? at h
  split at h
  · split at h
    · cases h
    · next hfree =>
        cases h
        rw [not_or, Bool.not_eq_true] at hfree
        exact hfree.2
  · cases h

theorem write_eq_ok_iff {content : ByteArray} : t.write p content = .ok t' ↔
    ∃ l, t.writePlace? p = some l ∧ t' = t.set l (.file content) := by
  unfold write writePlace?
  cases h : t.locateNew p with
  | error e => simp [bind, Except.bind]
  | ok place =>
      obtain ⟨directory, name?⟩ := place
      cases name? with
      | none => simp [bind, Except.bind]
      | some name =>
          simp only [bind, Except.bind]
          split
          · simp
          · simp [eq_comm]

theorem exists_locateNew (h : t.writePlace? p = some l) :
    ∃ directory name, t.locateNew p = .ok (directory, some name) ∧ l = directory ++ [name] := by
  unfold writePlace? at h
  split at h
  · next directory name hlocate =>
      split at h
      · cases h
      · cases h
        exact ⟨directory, name, hlocate, rfl⟩
  · cases h

/-- Where a path leads something new depends on the directories alone. -/
theorem locateNew_congr (hdirectories : ∀ l, t'.isDirectoryAt l = t.isDirectoryAt l)
    (hworking : t'.workingDirectory = t.workingDirectory) {place : Location × Option String}
    (h : t.locateNew p = .ok place) : t'.locateNew p = .ok place := by
  have horigin : t'.origin p = t.origin p := by rw [origin, origin, hworking]
  simp only [locateNew, bind_eq_ok_iff, horigin] at h ⊢
  obtain ⟨_, hcheck, h⟩ := h
  refine ⟨_, hcheck, ?_⟩
  split
  · next hpieces => simpa only [hpieces] using h
  · next last front hpieces =>
      simp only [hpieces, bind_eq_ok_iff] at h ⊢
      obtain ⟨directory, hfollow, h⟩ := h
      split at h
      · cases h
      · next hdirectory =>
          have hd : t.isDirectoryAt directory = true := by simpa using hdirectory
          refine ⟨directory, follow_congr hdirectories hfollow hd, ?_⟩
          simp only [hdirectories, hd, Bool.not_true, Bool.false_eq_true, if_false]
          exact h

theorem writePlace?_congr (hdirectories : ∀ l, t'.isDirectoryAt l = t.isDirectoryAt l)
    (hworking : t'.workingDirectory = t.workingDirectory) (p : Path) :
    t'.writePlace? p = t.writePlace? p := by
  have hmono : ∀ {t t' : FileTree} {l : Location},
      (∀ l, t'.isDirectoryAt l = t.isDirectoryAt l) →
      t'.workingDirectory = t.workingDirectory → t.writePlace? p = some l →
      t'.writePlace? p = some l := by
    intro t t' l hdirectories hworking h
    obtain ⟨directory, name, hlocate, -⟩ := exists_locateNew h
    rw [writePlace?, hlocate] at h
    rw [writePlace?, locateNew_congr hdirectories hworking hlocate]
    simpa only [hdirectories] using h
  refine Option.ext fun l => ⟨?_, hmono hdirectories hworking⟩
  exact hmono (fun l => (hdirectories l).symm) hworking.symm

theorem fromUTF8?_toUTF8 (s : String) : String.fromUTF8? s.toUTF8 = some s := by
  simp only [String.fromUTF8?, String.toUTF8_eq_toByteArray, dif_pos s.isValidUTF8]
  rfl

/-- A path to something new: its directory is followed, and its last piece is a name. -/
theorem exists_follow_of_locateNew {directory : Location} {name : String}
    (h : t.locateNew p = .ok (directory, some name)) :
    checkPath p = .ok () ∧ ∃ last front,
      (Text.splitOn '/' p.text.toList).reverse.dropWhile List.isEmpty = last :: front ∧
        t.follow (t.origin p) front.reverse = .ok directory ∧
        t.isDirectoryAt directory = true ∧ ¬(last = ['.'] ∨ last = ['.', '.']) ∧
        ¬maxNameLength < (String.ofList last).utf8ByteSize ∧ name = String.ofList last := by
  simp only [locateNew, bind_eq_ok_iff] at h
  obtain ⟨_, hcheck, h⟩ := h
  split at h
  · cases h
  · next last front hpieces =>
      simp only [bind_eq_ok_iff] at h
      obtain ⟨place, hfollow, h⟩ := h
      split at h
      · cases h
      · next hdirectory =>
          split at h
          · cases h
          · next hdots =>
              split at h
              · cases h
              · next hlong =>
                  cases h
                  exact ⟨hcheck, last, front, hpieces, hfollow, by simpa using hdirectory, hdots,
                    hlong, rfl⟩

/-- A path that does not end in a slash is followed through its directory to its last piece. -/
theorem splitOn_eq_of_locateNew {last : List Char} {front : List (List Char)}
    (hcheck : checkPath p = .ok ()) (hslash : p.text.toList.getLast? ≠ some '/')
    (h : (Text.splitOn '/' p.text.toList).reverse.dropWhile List.isEmpty = last :: front) :
    Text.splitOn '/' p.text.toList = front.reverse ++ [last] ∧ last ≠ [] := by
  obtain hnil | ⟨cs, c, htext⟩ := List.eq_nil_or_concat' p.text.toList
  · have hempty : p.text = "" := String.toList_inj.mp hnil
    rw [checkPath, hempty] at hcheck
    cases hcheck
  · rw [htext, List.getLast?_concat, ne_eq, Option.some.injEq] at hslash
    obtain ⟨pieces, piece, hsplit⟩ := Text.exists_splitOn_concat hslash cs
    have hpiece : (piece ++ [c]).isEmpty = false := by simp
    rw [htext, hsplit, List.reverse_append, List.reverse_singleton, List.singleton_append,
      List.dropWhile_cons_of_neg (by simp [hpiece]), List.cons.injEq] at h
    rw [htext, hsplit, ← h.1, ← h.2, List.reverse_reverse]
    exact ⟨rfl, by simp⟩

/-- A path leads to the place that writing to it fills, once something is there. -/
theorem locate_of_writePlace? (hplace : t.writePlace? p = some l) (h : (t.find? l).isSome = true) :
    t.locate p = .ok l := by
  obtain ⟨directory, name, hlocate, rfl⟩ := exists_locateNew hplace
  have hslash : p.text.toList.getLast? ≠ some '/' := by
    intro hlast
    rw [writePlace?, hlocate] at hplace
    simp [hlast] at hplace
  obtain ⟨hcheck, last, front, hpieces, hfollow, hdirectory, hdots, hlong, rfl⟩ :=
    exists_follow_of_locateNew hlocate
  obtain ⟨hsplit, hne⟩ := splitOn_eq_of_locateNew hcheck hslash hpieces
  rw [not_or] at hdots
  have hidle : Path.isIdle last = false := by simp [Path.isIdle, hne, hdots.1]
  have hstep : t.follow directory [last] = .ok (directory ++ [String.ofList last]) := by
    obtain ⟨e, he⟩ := Option.isSome_iff_exists.mp h
    simp [follow, hdirectory, hidle, hdots.2, hlong, he]
  have htrace : t.trace p = .ok (directory ++ [String.ofList last]) := by
    have hchecked := hcheck
    unfold checkPath at hchecked
    split at hchecked
    · cases hchecked
    · next hnul =>
        split at hchecked
        · cases hchecked
        · next hempty =>
            rw [trace, if_neg hnul, if_neg hempty, hsplit, follow_append, hfollow]
            exact hstep
  rw [locate, hcheck]
  exact htrace

/-- What stands where writing to a path puts a file can be read under that path. -/
theorem readText_of_writePlace? {text : String} (hplace : t.writePlace? p = some l)
    (hfile : t.find? l = some (.file text.toUTF8)) : t.readText p = .ok text := by
  have hlocated := locate_of_writePlace? hplace (by rw [hfile]; rfl)
  simp only [readText, hlocated, bind, Except.bind, hfile, fromUTF8?_toUTF8]

/-- Files that are written one after the other, under names in a directory. -/
inductive Stored (directory : Path) : FileTree → List (String × String) → FileTree → Prop
  | nil (t : FileTree) : Stored directory t [] t
  | cons {t t₁ t' : FileTree} {name text : String} {files : List (String × String)}
      (hwrite : t.writeText (directory.join ⟨name⟩) text = .ok t₁)
      (hrest : Stored directory t₁ files t') : Stored directory t ((name, text) :: files) t'

/-- The last file that leads to a place. -/
def lastAt? (t : FileTree) (directory : Path) (files : List (String × String)) (l : Location) :
    Option String :=
  (files.reverse.find? fun file => t.writePlace? (directory.join ⟨file.1⟩) = some l).map (·.2)

namespace Stored

variable {directory : Path} {files more : List (String × String)}

theorem append (h : Stored directory t files t') (h' : Stored directory t' more t'') :
    Stored directory t (files ++ more) t'' := by
  induction h with
  | nil t => exact h'
  | cons hwrite _ ih => exact .cons hwrite (ih h')

/-- Writing files leaves the directories as they are. -/
theorem directories (h : Stored directory t files t') :
    (∀ l, t'.isDirectoryAt l = t.isDirectoryAt l) ∧
      t'.workingDirectory = t.workingDirectory := by
  induction h with
  | nil t => exact ⟨fun _ => rfl, rfl⟩
  | cons hwrite _ ih =>
      obtain ⟨l, hplace, rfl⟩ := write_eq_ok_iff.mp hwrite
      exact ⟨fun l' => (ih.1 l').trans
        (isDirectoryAt_set_file (isDirectoryAt_writePlace? hplace) _ l'), ih.2⟩

theorem writePlace?_eq (h : Stored directory t files t') (p : Path) :
    t'.writePlace? p = t.writePlace? p :=
  writePlace?_congr h.directories.1 h.directories.2 p

/-- Every file has a place from the beginning. -/
theorem isSome_writePlace? (h : Stored directory t files t') :
    ∀ file ∈ files, (t.writePlace? (directory.join ⟨file.1⟩)).isSome = true := by
  induction h with
  | nil t => simp
  | @cons t t₁ t' name text files hwrite hrest ih =>
      obtain ⟨l, hplace, rfl⟩ := write_eq_ok_iff.mp hwrite
      refine List.forall_mem_cons.mpr ⟨by rw [hplace]; rfl, fun file hfile => ?_⟩
      rw [← ih file hfile, writePlace?_congr
        (isDirectoryAt_set_file (isDirectoryAt_writePlace? hplace) _) rfl]

/-- At each place is the last file that leads there, or what was there before. -/
theorem find?_eq (h : Stored directory t files t') (l : Location) :
    t'.find? l =
      ((lastAt? t directory files l).map fun text => .file text.toUTF8).or (t.find? l) := by
  induction h with
  | nil t => rfl
  | @cons t t₁ t' name text files hwrite hrest ih =>
      obtain ⟨place, hplace, rfl⟩ := write_eq_ok_iff.mp hwrite
      have hfree := isDirectoryAt_writePlace? hplace
      have hsame : lastAt? (t.set place (.file text.toUTF8)) directory files l =
          lastAt? t directory files l := by
        simp only [lastAt?, writePlace?_congr (isDirectoryAt_set_file hfree _) rfl]
      rw [ih, hsame, find?_set t _ (ne_nil_of_isDirectoryAt hfree), lastAt?, lastAt?,
        List.reverse_cons, List.find?_append]
      cases hlast : files.reverse.find? fun file =>
          decide (t.writePlace? (directory.join ⟨file.1⟩) = some l) with
      | some file => rfl
      | none =>
          by_cases hl : l = place
          · simp [hplace, hl]
          · simp [hplace, hl, Ne.symm hl]

/-- The last file that leads to the place of a file. -/
theorem exists_lastAt? {t : FileTree} {file : String × String} {l : Location} (hmem : file ∈ files)
    (hplace : t.writePlace? (directory.join ⟨file.1⟩) = some l) :
    ∃ last ∈ files, t.writePlace? (directory.join ⟨last.1⟩) = some l ∧
      lastAt? t directory files l = some last.2 := by
  cases hfind : files.reverse.find? fun file =>
      decide (t.writePlace? (directory.join ⟨file.1⟩) = some l) with
  | none =>
      have hnone := List.find?_eq_none.mp hfind _ (List.mem_reverse.mpr hmem)
      simp [hplace] at hnone
  | some last =>
      refine ⟨last, List.mem_reverse.mp (List.mem_of_find?_eq_some hfind),
        by simpa using List.find?_some hfind, ?_⟩
      rw [lastAt?, hfind, Option.map_some]

/-- Under the path of a file there is a text afterwards: that of the last file at its place. -/
theorem exists_readText (h : Stored directory t files t') {file : String × String}
    (hmem : file ∈ files) : ∃ last ∈ files,
      t.writePlace? (directory.join ⟨last.1⟩) = t.writePlace? (directory.join ⟨file.1⟩) ∧
      t'.readText (directory.join ⟨file.1⟩) = .ok last.2 := by
  obtain ⟨l, hplace⟩ := Option.isSome_iff_exists.mp (h.isSome_writePlace? _ hmem)
  obtain ⟨last, hlast, hlastPlace, htext⟩ := exists_lastAt? hmem hplace
  refine ⟨last, hlast, hlastPlace.trans hplace.symm,
    readText_of_writePlace? ((h.writePlace?_eq _).trans hplace) ?_⟩
  rw [h.find?_eq, htext]
  rfl

/-- A file can be read under its path afterwards, where what leads to its place has its text. -/
theorem readText_eq (h : Stored directory t files t') {name text : String}
    (hmem : (name, text) ∈ files)
    (hsame : ∀ file ∈ files, t.writePlace? (directory.join ⟨file.1⟩) =
      t.writePlace? (directory.join ⟨name⟩) → file.2 = text) :
    t'.readText (directory.join ⟨name⟩) = .ok text := by
  obtain ⟨last, hlast, hplace, hread⟩ := h.exists_readText hmem
  rw [hread, hsame last hlast hplace]

end Stored

/-- The tree with some more directories, where nothing was. -/
structure Extended (t t' : FileTree) : Prop where
  workingDirectory : t'.workingDirectory = t.workingDirectory
  entry : ∀ l, t'.find? l = t.find? l ∨ (t.find? l = none ∧ t'.find? l = some .directory)

theorem Extended.refl (t : FileTree) : Extended t t := ⟨rfl, fun _ => .inl rfl⟩

theorem Extended.trans (h : Extended t t') (h' : Extended t' t'') : Extended t t'' where
  workingDirectory := h'.workingDirectory.trans h.workingDirectory
  entry l := by
    obtain heq | ⟨hnone, hnew⟩ := h.entry l
    · rw [← heq]
      exact h'.entry l
    · obtain heq' | ⟨hnone', -⟩ := h'.entry l
      · exact .inr ⟨hnone, heq'.trans hnew⟩
      · rw [hnew] at hnone'
        cases hnone'

theorem extended_makeDirectory (h : t.makeDirectory p = .ok t') : Extended t t' := by
  simp only [makeDirectory, bind_eq_ok_iff] at h
  obtain ⟨⟨directory, name?⟩, -, h⟩ := h
  dsimp only at h
  split at h
  · cases h
  · next name hname =>
      split at h
      · cases h
      · next hnone =>
          cases h
          refine ⟨rfl, fun l => ?_⟩
          rw [find?_set _ _ (by simp)]
          split
          · next hl => exact .inr ⟨by simpa [hl] using hnone, rfl⟩
          · exact .inl rfl

theorem extended_makeDirectories (depth : Nat) (t : FileTree) (p : Path) :
    Extended t (t.makeDirectories depth p).1 := by
  induction depth generalizing t p with
  | zero => exact .refl t
  | succ depth ih =>
      simp only [makeDirectories]
      split
      · exact .refl t
      · split
        · next hmake => exact extended_makeDirectory hmake
        · split
          · exact .refl t
          · next parent _ =>
              have hparent := ih t parent
              split
              · next hmade =>
                  rw [hmade] at hparent
                  exact hparent
              · next hmade =>
                  rw [hmade] at hparent
                  split
                  · next hmake => exact hparent.trans (extended_makeDirectory hmake)
                  · exact hparent
        · exact .refl t

/-- Making a directory and those above it only adds directories, also when it fails. -/
theorem extended_makeAll (t : FileTree) (p : Path) : Extended t (t.makeAll p).1 :=
  extended_makeDirectories _ t p

/-- Files that are written into a tree with some more directories change nothing exactly when no
directory was added and the files were there before. -/
theorem Stored.unchanged_iff {made : FileTree} {directory : Path} {files : List (String × String)}
    (h : Stored directory made files t') (hmade : Extended t made) :
    (∀ l, t'.find? l = t.find? l) ↔ (∀ l, made.find? l = t.find? l) ∧
      ∀ l text, lastAt? made directory files l = some text →
        t.find? l = some (.file text.toUTF8) := by
  constructor
  · intro hsame
    have hfile : ∀ l text, lastAt? made directory files l = some text →
        t.find? l = some (.file text.toUTF8) := by
      intro l text hlast
      rw [← hsame l, h.find?_eq, hlast]
      rfl
    refine ⟨fun l => ?_, hfile⟩
    cases hlast : lastAt? made directory files l with
    | none => rw [← hsame l, h.find?_eq, hlast, Option.map_none, Option.none_or]
    | some text =>
        refine (hmade.entry l).resolve_right fun hnew => ?_
        rw [hfile l text hlast] at hnew
        cases hnew.1
  · intro hsame l
    rw [h.find?_eq]
    cases hlast : lastAt? made directory files l with
    | none => rw [Option.map_none, Option.none_or, hsame.1]
    | some text => exact (hsame.2 l text hlast).symm

end FileTree
end StyleBundler
