import Mathlib.Data.List.TakeWhile
import StyleBundler.Proofs.Path.Place

/-!
The files that a script specifier is tried as. An extension is put in the place of the one that a
name has (`Path.toList_withExtension`), so that it is added to a name without dots only. Where the
name has one, the search is for other files than those with an extension added
(`Resolve.script_appended_iff`).
-/

namespace StyleBundler.Path

open Text FileTree

variable {p : Path} {front : List Char}

theorem stem_of_notMem {name : List Char} (h : '.' ∉ name) : stem name = name := by
  have hnone : name.reverse.dropWhile (· != '.') = [] := by
    rw [List.dropWhile_eq_nil_iff]
    intro c hc
    simpa using fun heq : c = '.' => h (heq ▸ List.mem_reverse.mp hc)
  rw [stem, hnone]
  rfl

theorem stem_append {old : List Char} (h : '.' ∉ old) (front : List Char) :
    stem (front ++ '.' :: old) = if front.isEmpty then '.' :: old else front := by
  have hdot : (front ++ '.' :: old).reverse.dropWhile (· != '.') = '.' :: front.reverse := by
    rw [List.reverse_append, List.reverse_cons, List.append_assoc, List.singleton_append,
      List.dropWhile_append_of_pos, List.dropWhile_cons_of_neg (by simp)]
    intro c hc
    simpa using fun heq : c = '.' => h (heq ▸ List.mem_reverse.mp hc)
  rw [stem, hdot, List.tail_cons, List.reverse_reverse]
  cases front <;> rfl

theorem exists_last_dot {name : List Char} (h : '.' ∈ name) :
    ∃ front old, name = front ++ '.' :: old ∧ '.' ∉ old := by
  obtain ⟨old, front, hname, hold⟩ := List.eq_append_cons_of_mem (List.mem_reverse.mpr h)
  refine ⟨front.reverse, old.reverse, ?_, by rwa [List.mem_reverse]⟩
  rw [← List.reverse_reverse name, hname]
  simp

/-- A name whose only dot may be its first character has no extension. -/
theorem stem_eq_self {name : List Char} (h : '.' ∉ name.tail) : stem name = name := by
  by_cases hdot : '.' ∈ name
  · obtain ⟨front, old, rfl, hold⟩ := exists_last_dot hdot
    cases front with
    | nil => rw [stem_append hold]; rfl
    | cons c front => simp at h
  · exact stem_of_notMem hdot

theorem exists_extension {name : List Char} (h : '.' ∈ name.tail) :
    ∃ old, name = stem name ++ '.' :: old := by
  obtain ⟨front, old, rfl, hold⟩ := exists_last_dot (List.mem_of_mem_tail h)
  cases front with
  | nil => exact absurd h hold
  | cons c front => exact ⟨old, by rw [stem_append hold]; rfl⟩

theorem mem_of_mem_stem {name : List Char} {c : Char} (h : c ∈ stem name) : c ∈ name := by
  by_cases hdot : '.' ∈ name.tail
  · obtain ⟨old, hname⟩ := exists_extension hdot
    rw [hname]
    exact List.mem_append_left _ h
  · rwa [stem_eq_self hdot] at h

/-- The text in front of the last name of a path. -/
def IsFront (front : List Char) : Prop := front = [] ∨ front.getLast? = some '/'

theorem IsFront.exists_pieces (h : IsFront front) :
    ∃ pieces, ∀ name : List Char, '/' ∉ name → splitOn '/' (front ++ name) = pieces ++ [name] := by
  obtain rfl | h := h
  · exact ⟨[], fun name hname => splitOn_of_notMem hname⟩
  · obtain ⟨directory, rfl⟩ := List.getLast?_eq_some_iff.mp h
    refine ⟨splitOn '/' directory, fun name hname => ?_⟩
    rw [List.append_assoc, List.singleton_append, splitOn_append, splitOn_of_notMem hname]

/-- The slash or dot that the path starts with does not belong to its last name. -/
theorem IsFront.exists_lead (h : IsFront front) {name : String} (hname : IsName name) :
    ∃ rest, front = lead (front ++ name.toList) ++ rest ∧ IsFront rest := by
  cases front with
  | nil =>
      have hslash : name.toList.head? ≠ some '/' :=
        fun hhead => hname.noSlash (List.mem_of_head? hhead)
      have hdot : name.toList ≠ ['.'] := by
        intro hdot
        have hidle := hname.notIdle
        rw [hdot] at hidle
        cases hidle
      refine ⟨[], ?_, .inl rfl⟩
      rw [List.nil_append, lead, if_neg hslash, splitOn_of_notMem hname.noSlash, List.head?_cons,
        if_neg (by simpa using hdot)]
      rfl
  | cons c front =>
      have htail : IsFront front := by
        obtain h | h := h
        · cases h
        · cases front with
          | nil => exact .inl rfl
          | cons d front => exact .inr (by rwa [List.getLast?_cons_cons] at h)
      unfold lead
      split
      · next hc =>
          cases hc
          exact ⟨front, rfl, htail⟩
      · split
        · next hdot =>
            have hpieces := joinWith_splitOn '/' (c :: front ++ name.toList)
            obtain ⟨pieces, hsplit⟩ := List.head?_eq_some_iff.mp hdot
            rw [hsplit] at hpieces
            have hc : c = '.' := by
              cases pieces <;> exact (List.cons.inj hpieces).1.symm
            exact ⟨front, by rw [hc]; rfl, htail⟩
        · exact ⟨c :: front, rfl, h⟩

/-- An extension stands behind the stem of the name. -/
theorem toList_withExtension (hfront : IsFront front) {name extension : String}
    (hname : IsName name) (htext : p.text.toList = front ++ name.toList)
    (hp : p.fileName? = some name) (hextension : '/' ∉ extension.toList)
    (hne : extension ≠ "") :
    (p.withExtension extension).text.toList =
      front ++ (stem name.toList ++ '.' :: extension.toList) := by
  obtain ⟨rest, hrest, hfront⟩ := hfront.exists_lead hname
  obtain ⟨pieces, hpieces⟩ := hfront.exists_pieces
  have hdrop : (front ++ name.toList).drop (lead (front ++ name.toList)).length =
      rest ++ name.toList := by
    generalize lead (front ++ name.toList) = start at hrest
    simp [hrest]
  have hbody : bodyPieces p.text.toList = pieces ++ [name.toList] := by
    rw [bodyPieces, htext, hdrop, hpieces _ hname.noSlash, List.reverse_append,
      List.reverse_singleton, List.singleton_append,
      List.dropWhile_cons_of_neg (by simp [hname.notIdle])]
    simp
  have hnew : '/' ∉ stem name.toList ++ '.' :: extension.toList := by
    intro hslash
    rcases List.mem_append.mp hslash with hslash | hslash
    · exact hname.noSlash (mem_of_mem_stem hslash)
    · exact hextension (List.mem_of_ne_of_mem (by decide) hslash)
  have hempty : extension.isEmpty = false := by
    rw [Bool.eq_false_iff, ne_eq, String.isEmpty_iff]
    exact hne
  simp only [withExtension, hp, hbody, hempty, String.toList_ofList, List.dropLast_concat]
  rw [if_neg (by simp), ← hpieces _ hnew, joinWith_splitOn, htext, ← List.append_assoc, ← hrest]

theorem toList_join {q : Path} (hq : q.isAbsolute = false) (p : Path) :
    ∃ sep, (sep = [] ∨ sep = ['/']) ∧ IsFront (p.text.toList ++ sep) ∧
      (p.join q).text.toList = p.text.toList ++ sep ++ q.text.toList := by
  rw [join, hq]
  by_cases hp : (p.text.isEmpty || p.text.toList.getLast? == some '/') = true
  · refine ⟨[], .inl rfl, ?_, by simp [hp, String.toList_append]⟩
    rw [List.append_nil]
    rw [Bool.or_eq_true, String.isEmpty_iff, beq_iff_eq] at hp
    exact hp.imp (fun h => by rw [h]; rfl) id
  · exact ⟨['/'], .inr rfl, .inr (by simp), by simp [hp, String.toList_append]⟩

/-- A normal path ends with its file name. -/
theorem exists_front {q : Path} {name : String} (h : q.normalize.fileName? = some name) :
    IsName name ∧ ∃ front, IsFront front ∧ q.normalize.text.toList = front ++ name.toList := by
  have hstack := isStack_components q
  have hlast : (q.components.foldl pushComponent []).reverse.getLast? = some (.name name) := by
    rw [fileName?, components_normalize] at h
    split at h
    · next s hs => rwa [Option.some.inj h] at hs
    · cases h
  obtain ⟨steps, hsteps⟩ := List.getLast?_eq_some_iff.mp hlast
  have hname : IsName name := by
    rw [List.reverse_eq_iff.mp hsteps, List.reverse_append] at hstack
    cases hstack with
    | name hname _ => exact hname
  obtain ⟨sep, -, hfront, htext⟩ :=
    toList_join (isAbsolute_of_noSlash hname.noSlash) (ofComponents steps)
  refine ⟨hname, _, hfront, ?_⟩
  rw [normalize, hsteps, ofComponents, List.foldl_append]
  exact htext

/-- The path with an extension behind it. -/
def addExtension (p : Path) (extension : String) : Path := ⟨p.text ++ "." ++ extension⟩

theorem toList_addExtension (p : Path) (extension : String) :
    (p.addExtension extension).text.toList = p.text.toList ++ '.' :: extension.toList := by
  simp [addExtension, String.toList_append]

/-- The path has a name, and that has no extension. -/
def IsExtensionless (p : Path) : Prop := ∃ name, p.fileName? = some name ∧ '.' ∉ name.toList.tail

end StyleBundler.Path

namespace StyleBundler.Resolve

open StyleBundler.Path

/-- The path that a specifier spells beside its module. -/
def targetOf (specifier : String) (importer : Path) : Path :=
  ((directoryOf importer).join ⟨specifier⟩).normalize

/-- The files that a directory may stand for. -/
def indexFiles (t : FileTree) (extensions : List String) (target : Path) : List Path :=
  if t.isDirectory target then extensions.map fun e => target.join ⟨"index." ++ e⟩ else []

/-- The files that a specifier may mean if extensions are only added. -/
def appended (t : FileTree) (extensions : List String) (target : Path) : List Path :=
  target :: extensions.map target.addExtension ++ indexFiles t extensions target

theorem scriptExtensions_plain :
    ∀ e ∈ scriptExtensions, '.' ∉ e.toList ∧ '/' ∉ e.toList ∧ e ≠ "" := by decide

variable {t : FileTree} {p : Path} {e : String}

theorem withExtension_eq_addExtension (h : p.normalize.IsExtensionless)
    (he : e ∈ scriptExtensions) : p.normalize.withExtension e = p.normalize.addExtension e := by
  obtain ⟨name, hname, hdot⟩ := h
  obtain ⟨hproper, front, hfront, htext⟩ := exists_front hname
  obtain ⟨-, hslash, hne⟩ := scriptExtensions_plain e he
  apply Path.eq_of_toList
  rw [toList_withExtension hfront hproper htext hname hslash hne, toList_addExtension, htext,
    stem_eq_self hdot, List.append_assoc]

/-- No text with a dot makes a path the one with another extension. -/
theorem toList_withExtension_ne {name : String} (hname : p.normalize.fileName? = some name)
    (hdot : '.' ∈ name.toList.tail) (he : e ∈ scriptExtensions) {tail : List Char}
    (htail : '.' ∈ tail) :
    (p.normalize.withExtension e).text.toList ≠ p.normalize.text.toList ++ tail := by
  obtain ⟨hproper, front, hfront, htext⟩ := exists_front hname
  obtain ⟨hplain, hslash, hne⟩ := scriptExtensions_plain e he
  obtain ⟨old, hold⟩ := exists_extension hdot
  rw [toList_withExtension hfront hproper htext hname hslash hne, htext]
  intro heq
  have hname : stem name.toList ++ '.' :: e.toList =
      stem name.toList ++ ('.' :: old ++ tail) := by
    rw [← List.append_assoc, ← hold]
    exact List.append_cancel_left (heq.trans (List.append_assoc _ _ _))
  have hold := (List.cons.inj (List.append_cancel_left hname)).2
  exact hplain (hold ▸ List.mem_append_right _ htail)

theorem exists_toList_index (p : Path) (e : String) :
    ∃ sep, (sep = [] ∨ sep = ['/']) ∧
      (p.join ⟨"index." ++ e⟩).text.toList = p.text.toList ++ (sep ++ ("index." ++ e).toList) := by
  have hrelative : (⟨"index." ++ e⟩ : Path).isAbsolute = false := by
    rw [isAbsolute, String.toList_append]
    rfl
  obtain ⟨sep, hsep, -, htext⟩ := toList_join hrelative p
  exact ⟨sep, hsep, by rw [htext, List.append_assoc]⟩

theorem addExtension_ne_index (p : Path) (e e' : String) :
    p.addExtension e ≠ p.join ⟨"index." ++ e'⟩ := by
  intro heq
  obtain ⟨sep, hsep, htext⟩ := exists_toList_index p e'
  rw [← heq, toList_addExtension, String.toList_append] at htext
  have htail := List.append_cancel_left htext
  obtain rfl | rfl := hsep
  · cases (List.cons.inj htail).1
  · cases (List.cons.inj htail).1

theorem withExtension_ne_addExtension {name : String} (hname : p.normalize.fileName? = some name)
    (hdot : '.' ∈ name.toList.tail) (he : e ∈ scriptExtensions) (e' : String) :
    p.normalize.withExtension e ≠ p.normalize.addExtension e' := by
  intro heq
  have htext := toList_addExtension p.normalize e'
  rw [← heq] at htext
  exact toList_withExtension_ne hname hdot he List.mem_cons_self htext

theorem withExtension_ne_index {name : String} (hname : p.normalize.fileName? = some name)
    (hdot : '.' ∈ name.toList.tail) (he : e ∈ scriptExtensions) (e' : String) :
    p.normalize.withExtension e ≠ p.normalize.join ⟨"index." ++ e'⟩ := by
  intro heq
  obtain ⟨sep, -, htext⟩ := exists_toList_index p.normalize e'
  rw [← heq] at htext
  refine toList_withExtension_ne hname hdot he ?_ htext
  rw [String.toList_append]
  simp

theorem eq_index_of_mem {extensions : List String} {target file : Path}
    (h : file ∈ indexFiles t extensions target) : ∃ e, file = target.join ⟨"index." ++ e⟩ := by
  unfold indexFiles at h
  split at h
  · obtain ⟨e, -, rfl⟩ := List.mem_map.mp h
    exact ⟨e, rfl⟩
  · cases h

/-- A file with a replaced extension is none of those with an added one. -/
theorem withExtension_notMem (htarget : t.isFile p.normalize = false)
    (hdotted : ¬p.normalize.IsExtensionless) (he : e ∈ scriptExtensions)
    (hfile : t.isFile (p.normalize.withExtension e) = true) :
    p.normalize.withExtension e ∉ scriptExtensions.map p.normalize.addExtension ++
      indexFiles t scriptExtensions p.normalize := by
  cases hname : p.normalize.fileName? with
  | none =>
      have hsame : p.normalize.withExtension e = p.normalize := by simp [withExtension, hname]
      rw [hsame, htarget] at hfile
      cases hfile
  | some name =>
      have hdot : '.' ∈ name.toList.tail := by
        by_contra hnone
        exact hdotted ⟨name, hname, hnone⟩
      intro hmem
      rcases List.mem_append.mp hmem with hmem | hmem
      · obtain ⟨e', -, heq⟩ := List.mem_map.mp hmem
        exact withExtension_ne_addExtension hname hdot he e' heq.symm
      · obtain ⟨e', heq⟩ := eq_index_of_mem hmem
        exact withExtension_ne_index hname hdot he e' heq

/-- Where the target is no file, has an extension and there is a file to be tried for it, the two
searches part. -/
theorem forall_of_find?_eq (htarget : t.isFile p.normalize = false)
    (hdotted : ¬p.normalize.IsExtensionless)
    (h : (scriptExtensions.map p.normalize.withExtension ++
        indexFiles t scriptExtensions p.normalize).find? t.isFile =
      (scriptExtensions.map p.normalize.addExtension ++
        indexFiles t scriptExtensions p.normalize).find? t.isFile) :
    ∀ e ∈ scriptExtensions, t.isFile (p.normalize.withExtension e) = false ∧
      t.isFile (p.normalize.addExtension e) = false := by
  rw [List.find?_append] at h
  cases hreplaced : (scriptExtensions.map p.normalize.withExtension).find? t.isFile with
  | some file =>
      have hfile := List.find?_some hreplaced
      obtain ⟨e, he, rfl⟩ := List.mem_map.mp (List.mem_of_find?_eq_some hreplaced)
      rw [hreplaced, Option.some_or] at h
      exact absurd (List.mem_of_find?_eq_some h.symm)
        (withExtension_notMem htarget hdotted he hfile)
  | none =>
      rw [hreplaced, Option.none_or, List.find?_append] at h
      cases hadded : (scriptExtensions.map p.normalize.addExtension).find? t.isFile with
      | some file =>
          obtain ⟨e, -, rfl⟩ := List.mem_map.mp (List.mem_of_find?_eq_some hadded)
          rw [hadded, Option.some_or] at h
          obtain ⟨e', heq⟩ := eq_index_of_mem (List.mem_of_find?_eq_some h)
          exact absurd heq (addExtension_ne_index _ e e')
      | none =>
          rw [List.find?_eq_none] at hreplaced hadded
          intro e he
          exact ⟨by simpa using hreplaced _ (List.mem_map_of_mem he),
            by simpa using hadded _ (List.mem_map_of_mem he)⟩

theorem find?_map_eq_none {f : String → Path}
    (h : ∀ e ∈ scriptExtensions, t.isFile (f e) = false) :
    (scriptExtensions.map f).find? t.isFile = none := by
  rw [List.find?_eq_none]
  intro file hfile
  obtain ⟨e, he, rfl⟩ := List.mem_map.mp hfile
  simp [h e he]

theorem find?_candidates_iff (t : FileTree) (p : Path) :
    (candidates t scriptExtensions p.normalize).find? t.isFile =
        (appended t scriptExtensions p.normalize).find? t.isFile ↔
      t.isFile p.normalize = true ∨ p.normalize.IsExtensionless ∨
        ∀ e ∈ scriptExtensions, t.isFile (p.normalize.withExtension e) = false ∧
          t.isFile (p.normalize.addExtension e) = false := by
  change (p.normalize :: (scriptExtensions.map p.normalize.withExtension ++
      indexFiles t scriptExtensions p.normalize)).find? t.isFile =
    (p.normalize :: (scriptExtensions.map p.normalize.addExtension ++
      indexFiles t scriptExtensions p.normalize)).find? t.isFile ↔ _
  cases htarget : t.isFile p.normalize with
  | true => simp [htarget]
  | false =>
      rw [List.find?_cons_of_neg (by simp [htarget]), List.find?_cons_of_neg (by simp [htarget])]
      constructor
      · intro h
        by_cases hdotted : p.normalize.IsExtensionless
        · exact .inr (.inl hdotted)
        · exact .inr (.inr (forall_of_find?_eq htarget hdotted h))
      · rintro (h | h | h)
        · cases h
        · rw [List.map_congr_left fun e he => withExtension_eq_addExtension h he]
        · rw [List.find?_append, List.find?_append, find?_map_eq_none fun e he => (h e he).1,
            find?_map_eq_none fun e he => (h e he).2]

theorem script?_eq {specifier : String}
    (h : specifier.toList.head? = some '.' ∨ specifier.toList.head? = some '/')
    (t : FileTree) (importer : Path) : script? t specifier importer =
      (candidates t scriptExtensions (targetOf specifier importer)).find? t.isFile := by
  unfold script?
  rcases h with h | h
  · obtain ⟨rest, hspecifier⟩ := List.head?_eq_some_iff.mp h
    rw [hspecifier]
    rfl
  · obtain ⟨rest, hspecifier⟩ := List.head?_eq_some_iff.mp h
    rw [hspecifier]
    rfl

/-- What is tried for a path with a name: its stem with each extension behind it. -/
theorem exists_candidates_eq {name : String} (hname : p.normalize.fileName? = some name)
    (t : FileTree) :
    ∃ front, IsFront front ∧ p.normalize.text.toList = front ++ name.toList ∧
      candidates t scriptExtensions p.normalize =
        p.normalize :: scriptExtensions.map (fun e =>
          ⟨String.ofList (front ++ (stem name.toList ++ '.' :: e.toList))⟩) ++
          indexFiles t scriptExtensions p.normalize := by
  obtain ⟨hproper, front, hfront, htext⟩ := exists_front hname
  refine ⟨front, hfront, htext, ?_⟩
  have hreplaced : scriptExtensions.map p.normalize.withExtension =
      scriptExtensions.map fun e =>
        ⟨String.ofList (front ++ (stem name.toList ++ '.' :: e.toList))⟩ := by
    refine List.map_congr_left fun e he => ?_
    obtain ⟨-, hslash, hne⟩ := scriptExtensions_plain e he
    rw [← toList_withExtension hfront hproper htext hname hslash hne, String.ofList_toList]
  rw [← hreplaced]
  rfl

/-- A script specifier leads to the file that it leads to if extensions are only added, exactly if
it spells a file itself, has no extension, or none of the files to be tried for an extension is
there: what is tried is an extension behind the stem of the name. -/
theorem script_appended_iff {specifier : String} {importer target : Path}
    (h : specifier.toList.head? = some '.' ∨ specifier.toList.head? = some '/')
    (htarget : targetOf specifier importer = target) (t : FileTree) :
    (script? t specifier importer = (appended t scriptExtensions target).find? t.isFile ↔
      t.isFile target = true ∨ target.IsExtensionless ∨
        ∀ e ∈ scriptExtensions, t.isFile (target.withExtension e) = false ∧
          t.isFile (target.addExtension e) = false) ∧
      ∀ name, target.fileName? = some name →
        ∃ front, IsFront front ∧ target.text.toList = front ++ name.toList ∧
          script? t specifier importer =
            (target :: scriptExtensions.map (fun e =>
              ⟨String.ofList (front ++ (stem name.toList ++ '.' :: e.toList))⟩) ++
              indexFiles t scriptExtensions target).find? t.isFile := by
  obtain ⟨p, rfl⟩ : ∃ p : Path, target = p.normalize := ⟨_, htarget.symm⟩
  rw [script?_eq h, htarget]
  refine ⟨find?_candidates_iff t p, fun name hname => ?_⟩
  obtain ⟨front, hfront, htext, hcandidates⟩ := exists_candidates_eq hname t
  exact ⟨front, hfront, htext, by rw [hcandidates]⟩

/-- A project with one script. -/
def oneScript (name : String) : FileTree :=
  ⟨[(["src"], .directory), (["src", name], .file "".toUTF8)], []⟩

theorem script_appended_iff_dotted :
    targetOf "./foo.min" ⟨"/src/main.js"⟩ = ⟨"/src/foo.min"⟩ ∧
      script? (oneScript "foo.js") "./foo.min" ⟨"/src/main.js"⟩ ≠
        (appended (oneScript "foo.js") scriptExtensions ⟨"/src/foo.min"⟩).find?
          (oneScript "foo.js").isFile := by
  have htarget : targetOf "./foo.min" ⟨"/src/main.js"⟩ = ⟨"/src/foo.min"⟩ := by decide +kernel
  refine ⟨htarget, fun heq => ?_⟩
  have hiff := (script_appended_iff (by decide) htarget (oneScript "foo.js")).1.mp heq
  rcases hiff with hfile | ⟨name, hname, hdot⟩ | hnone
  · exact absurd hfile (by decide +kernel)
  · have hdotted : (⟨"/src/foo.min"⟩ : Path).fileName? = some "foo.min" := by decide +kernel
    cases hname.symm.trans hdotted
    exact absurd hdot (by decide)
  · exact absurd (hnone "js" (by decide)).1 (by decide +kernel)

/-- A name with an extension leads to a script with another stem, and past the one that has an
extension added. -/
theorem script_drops_extension :
    script? (oneScript "foo.js") "./foo.min" ⟨"/src/main.js"⟩ = some ⟨"/src/foo.js"⟩ ∧
      (appended (oneScript "foo.js") scriptExtensions
        (targetOf "./foo.min" ⟨"/src/main.js"⟩)).find? (oneScript "foo.js").isFile = none ∧
      script? (oneScript "foo.min.js") "./foo.min" ⟨"/src/main.js"⟩ = none ∧
      (appended (oneScript "foo.min.js") scriptExtensions
        (targetOf "./foo.min" ⟨"/src/main.js"⟩)).find? (oneScript "foo.min.js").isFile =
          some ⟨"/src/foo.min.js"⟩ := by
  decide +kernel

end StyleBundler.Resolve
