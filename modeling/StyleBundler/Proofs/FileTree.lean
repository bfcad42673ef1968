import Mathlib.Data.List.Basic
import StyleBundler.FileTree

/-!
Places and their paths. A path is followed through names that a directory can hold, so a
place that was reached is made of such names (`isProper_trace`). The path of a place leads
to it and nowhere else (`eq_of_trace_pathOf`), and no other place has the same path
(`same_pathOf_iff`).
-/

namespace StyleBundler

namespace Text

theorem notMem_of_mem_splitOn {sign : Char} {cs piece : List Char}
    (h : piece ∈ splitOn sign cs) : sign ∉ piece := by
  induction cs generalizing piece with
  | nil =>
      simp only [splitOn, List.mem_singleton] at h
      simp [h]
  | cons c cs ih =>
      simp only [splitOn] at h
      split at h
      · rcases List.mem_cons.mp h with rfl | h
        · simp
        · exact ih h
      · next hc =>
          split at h
          · next hnil => exact absurd hnil (splitOn_ne_nil sign cs)
          · next first pieces hsplit =>
              rcases List.mem_cons.mp h with rfl | h
              · simp only [List.mem_cons, not_or]
                exact ⟨Ne.symm hc, ih (by simp [hsplit])⟩
              · exact ih (by simp [hsplit, h])

theorem splitOn_of_notMem {sign : Char} {piece : List Char} (h : sign ∉ piece) :
    splitOn sign piece = [piece] := by
  induction piece with
  | nil => rfl
  | cons c cs ih =>
      simp only [List.mem_cons, not_or] at h
      simp [splitOn, Ne.symm h.1, ih h.2]

theorem splitOn_append_cons {sign : Char} {piece : List Char} (h : sign ∉ piece)
    (cs : List Char) : splitOn sign (piece ++ sign :: cs) = piece :: splitOn sign cs := by
  induction piece with
  | nil => simp [splitOn]
  | cons c piece ih =>
      simp only [List.mem_cons, not_or] at h
      simp [splitOn, Ne.symm h.1, ih h.2]

theorem splitOn_intercalate {sign : Char} {pieces : List (List Char)} (hne : pieces ≠ [])
    (h : ∀ piece ∈ pieces, sign ∉ piece) : splitOn sign ([sign].intercalate pieces) = pieces := by
  induction pieces with
  | nil => exact absurd rfl hne
  | cons piece pieces ih =>
      have hpiece : sign ∉ piece := h piece (by simp)
      cases pieces with
      | nil => simpa using splitOn_of_notMem hpiece
      | cons next pieces =>
          rw [List.intercalate_cons_cons, List.append_assoc, List.singleton_append,
            splitOn_append_cons hpiece,
            ih (by simp) fun piece hmem => h piece (List.mem_cons_of_mem _ hmem)]

end Text

namespace FileTree

/-- A name that a directory can hold. -/
structure IsName (name : String) : Prop where
  notIdle : Path.isIdle name.toList = false
  notParent : name.toList ≠ ['.', '.']
  noSlash : '/' ∉ name.toList

instance (name : String) : Decidable (IsName name) :=
  decidable_of_iff (Path.isIdle name.toList = false ∧ name.toList ≠ ['.', '.'] ∧
    '/' ∉ name.toList)
    ⟨fun h => ⟨h.1, h.2.1, h.2.2⟩, fun h => ⟨h.notIdle, h.notParent, h.noSlash⟩⟩

/-- A place that directories can lead to. -/
def IsProper (l : Location) : Prop := ∀ name ∈ l, IsName name

instance (l : Location) : Decidable (IsProper l) :=
  inferInstanceAs (Decidable (∀ name ∈ l, IsName name))

variable {t : FileTree} {l l' : Location}

/-- What taking one step of a path can do. -/
theorem follow_cons {piece : List Char} {pieces : List (List Char)}
    (h : t.follow l (piece :: pieces) = .ok l') :
    (Path.isIdle piece = true ∧ t.follow l pieces = .ok l') ∨
      (piece = ['.', '.'] ∧ t.follow l.dropLast pieces = .ok l') ∨
      (Path.isIdle piece = false ∧ piece ≠ ['.', '.'] ∧
        t.follow (l ++ [String.ofList piece]) pieces = .ok l') := by
  simp only [follow] at h
  split at h
  · cases h
  · split at h
    · next hidle => exact .inl ⟨hidle, h⟩
    · next hidle =>
        split at h
        · next hparent => exact .inr (.inl ⟨hparent, h⟩)
        · next hparent =>
            split at h
            · cases h
            · split at h
              · cases h
              · exact .inr (.inr ⟨by simpa using hidle, hparent, h⟩)

theorem isProper_follow {pieces : List (List Char)} (hl : IsProper l)
    (hpieces : ∀ piece ∈ pieces, '/' ∉ piece) (h : t.follow l pieces = .ok l') :
    IsProper l' := by
  induction pieces generalizing l with
  | nil =>
      cases h
      exact hl
  | cons piece pieces ih =>
      have hrest : ∀ piece ∈ pieces, '/' ∉ piece := fun p hp =>
        hpieces p (List.mem_cons_of_mem _ hp)
      obtain ⟨-, h⟩ | ⟨-, h⟩ | ⟨hidle, hparent, h⟩ := follow_cons h
      · exact ih hl hrest h
      · exact ih (fun name hname => hl name (List.dropLast_subset l hname)) hrest h
      · have hname : IsName (String.ofList piece) := by
          constructor <;> simp only [String.toList_ofList]
          · exact hidle
          · exact hparent
          · exact hpieces piece (by simp)
        refine ih (fun name hmem => ?_) hrest h
        rcases List.mem_append.mp hmem with hmem | hmem
        · exact hl name hmem
        · rwa [List.mem_singleton.mp hmem]

/-- Followed names are added to the place one by one. -/
theorem follow_names {names : List String} (hnames : IsProper names)
    (h : t.follow l (names.map String.toList) = .ok l') : l' = l ++ names := by
  induction names generalizing l with
  | nil =>
      cases h
      simp
  | cons name names ih =>
      have hname : IsName name := hnames name (by simp)
      obtain ⟨hidle, -⟩ | ⟨hparent, -⟩ | ⟨-, -, h⟩ := follow_cons h
      · simp [hname.notIdle] at hidle
      · exact absurd hparent hname.notParent
      · rw [String.ofList_toList] at h
        rw [ih (fun n hn => hnames n (List.mem_cons_of_mem _ hn)) h]
        simp

theorem isProper_trace {p : Path} (ht : IsProper t.workingDirectory)
    (h : t.trace p = .ok l) : IsProper l := by
  simp only [trace] at h
  split at h
  · cases h
  · split at h
    · cases h
    · refine isProper_follow ?_ (fun piece hpiece => Text.notMem_of_mem_splitOn hpiece) h
      unfold origin
      split
      · exact fun _ hname => absurd hname List.not_mem_nil
      · exact ht

theorem toList_pathOf (l : Location) :
    (pathOf l).text.toList = '/' :: ['/'].intercalate (l.map String.toList) := by
  simp [pathOf, String.toList_append, String.toList_intercalate]

/-- The pieces of a place's path. The root has an empty piece behind its slash. -/
theorem splitOn_pathOf (hl : IsProper l) :
    Text.splitOn '/' (pathOf l).text.toList =
      [] :: (if l.isEmpty then [[]] else l.map String.toList) := by
  rw [toList_pathOf, Text.splitOn, if_pos rfl]
  cases l with
  | nil => rfl
  | cons name names =>
      rw [Text.splitOn_intercalate (by simp)]
      · simp
      · intro piece hpiece
        obtain ⟨n, hn, rfl⟩ := List.mem_map.mp hpiece
        exact (hl n hn).noSlash

theorem components_pathOf (hl : IsProper l) :
    (pathOf l).components = .root :: l.map Path.Component.name := by
  have hnames : ((l.map String.toList).filter fun piece => !Path.isIdle piece).map
      Path.pieceComponent = l.map Path.Component.name := by
    rw [List.filter_eq_self.mpr, List.map_map]
    · refine List.map_congr_left fun name hname => ?_
      simp [Path.pieceComponent, (hl name hname).notParent]
    · intro piece hpiece
      obtain ⟨name, hname, rfl⟩ := List.mem_map.mp hpiece
      simp [(hl name hname).notIdle]
  rw [Path.components, Path.componentsOf, splitOn_pathOf hl, toList_pathOf]
  cases l with
  | nil => rfl
  | cons name names =>
      rw [List.filter_cons_of_neg (by simp [Path.isIdle])]
      simpa using hnames

theorem same_pathOf_iff (hl : IsProper l) (hl' : IsProper l') :
    (pathOf l).Same (pathOf l') ↔ l = l' := by
  constructor
  · intro h
    rw [Path.Same, components_pathOf hl, components_pathOf hl', List.cons.injEq] at h
    exact List.map_injective_iff.mpr (fun a b hab => by cases hab; rfl) h.2
  · rintro rfl
    rfl

theorem eq_of_trace_pathOf (hl : IsProper l) (h : t.trace (pathOf l) = .ok l') : l' = l := by
  simp only [trace] at h
  split at h
  · cases h
  · split at h
    · cases h
    · have horigin : t.origin (pathOf l) = [] := by
        simp [origin, Path.isAbsolute, toList_pathOf]
      rw [splitOn_pathOf hl, horigin] at h
      obtain ⟨-, h⟩ | ⟨hparent, -⟩ | ⟨hidle, -⟩ := follow_cons h
      · cases l with
        | nil =>
            obtain ⟨-, h⟩ | ⟨hparent, -⟩ | ⟨hidle, -⟩ := follow_cons h
            · cases h
              rfl
            · simp at hparent
            · simp [Path.isIdle] at hidle
        | cons name names => simpa using follow_names hl h
      · simp at hparent
      · simp [Path.isIdle] at hidle

/-- The path of an existing file or directory is that of a place. -/
theorem exists_place_of_canonical {p place : Path} (ht : IsProper t.workingDirectory)
    (h : t.canonical p = .ok place) : ∃ l, IsProper l ∧ t.trace p = .ok l ∧ place = pathOf l := by
  unfold canonical at h
  cases htrace : t.trace p with
  | error e => simp [htrace, Except.map] at h
  | ok l =>
      rw [htrace] at h
      cases h
      exact ⟨l, isProper_trace ht htrace, rfl, rfl⟩

theorem locate_eq_trace {p : Path} (h : t.locate p = .ok l) : t.trace p = .ok l := by
  unfold locate at h
  cases hcheck : checkPath p with
  | error e => simp [hcheck, bind, Except.bind] at h
  | ok _ => simpa [hcheck, bind, Except.bind] using h

/-- A text that was read is that of a file of the tree. -/
theorem exists_file_of_readText {p : Path} {source : String} (h : t.readText p = .ok source) :
    ∃ l content, t.trace p = .ok l ∧ t.find? l = some (.file content) ∧
      String.fromUTF8? content = some source := by
  unfold readText at h
  cases hlocate : t.locate p with
  | error e => simp [hlocate, bind, Except.bind] at h
  | ok l =>
      simp only [hlocate, bind, Except.bind] at h
      split at h
      · next content hfile =>
          split at h
          · next s hs =>
              cases h
              exact ⟨l, content, locate_eq_trace hlocate, hfile, hs⟩
          · cases h
      · cases h
      · cases h

theorem mem_entries_of_find? {content : ByteArray} (h : t.find? l = some (.file content)) :
    l ∈ t.entries.map Prod.fst := by
  unfold find? at h
  split at h
  · cases h
  · obtain ⟨front, back, hsplit, -⟩ := List.lookup_eq_some_iff.mp h
    exact List.mem_map.mpr ⟨(l, .file content), by simp [hsplit], rfl⟩

end FileTree
end StyleBundler
