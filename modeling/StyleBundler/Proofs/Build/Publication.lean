import StyleBundler.Proofs.Build.Phases
import StyleBundler.Proofs.FileTree.Writing

/-!
What a build leaves in the tree. Its files are written one after the other, and the first that
cannot be written ends it (`publish_cases`). So a build that fails before that leaves the tree as
it was; one that fails there leaves the directories that it made and the files in front
(`build_error`).
-/

namespace StyleBundler.Build

open Hook FileTree

variable {f : ContentTransform} {t t' made : FileTree} {c : Config} {r : BuildRequest}
  {directory : Path} {withManifest : Bool} {cs : List Chunk} {context : Context}

def nameAndText (entry : String × OutputFile) : String × String := (entry.1, entry.2.source)

/-- The account of a bundle that has been written. -/
def writtenFiles (directory : Path) (b : OutputBundle) : List WrittenFile :=
  b.map fun entry =>
    ⟨entry.1, directory.join ⟨entry.1⟩, entry.2.kind, entry.2.source.utf8ByteSize⟩

/-- The files that a build writes, in order. -/
def outputFiles (directory : Path) (withManifest : Bool) (cs : List Chunk) (context : Context) :
    List (String × String) :=
  context.bundle.map nameAndText ++
    if withManifest then
      [(manifestName, Json.prettyObject (manifest cs (writtenFiles directory context.bundle)))]
    else []

theorem writeText_error {p : Path} {text : String} {e : FileError}
    (h : t.writeText p text = .error e) : t.writePlace? p = none := by
  cases hplace : t.writePlace? p with
  | none => rfl
  | some l =>
      have hok : t.writeText p text = .ok (t.set l (.file text.toUTF8)) :=
        write_eq_ok_iff.mpr ⟨l, hplace, rfl⟩
      rw [hok] at h
      cases h

theorem writeFiles_cons (directory : Path) (t : FileTree) (name : String) (file : OutputFile)
    (b : OutputBundle) :
    writeFiles directory t ((name, file) :: b) =
      match t.writeText (directory.join ⟨name⟩) file.source with
      | .error e => (t, .error (.outputFile (directory.join ⟨name⟩) e))
      | .ok t => ((writeFiles directory t b).1, (writeFiles directory t b).2.map
          (⟨name, directory.join ⟨name⟩, file.kind, file.source.utf8ByteSize⟩ :: ·)) := by
  rfl

/-- The files of a bundle are written up to the first that cannot be. -/
theorem writeFiles_cases (directory : Path) (t : FileTree) (b : OutputBundle) :
    (∃ t', Stored directory t (b.map nameAndText) t' ∧
      writeFiles directory t b = (t', .ok (writtenFiles directory b))) ∨
    ∃ front entry back t' e, b = front ++ entry :: back ∧
      Stored directory t (front.map nameAndText) t' ∧
      t'.writePlace? (directory.join ⟨entry.1⟩) = none ∧
      writeFiles directory t b = (t', .error e) := by
  induction b generalizing t with
  | nil => exact .inl ⟨t, .nil t, rfl⟩
  | cons entry b ih =>
      obtain ⟨name, file⟩ := entry
      cases hwrite : t.writeText (directory.join ⟨name⟩) file.source with
      | error e =>
          refine .inr ⟨[], (name, file), b, t, .outputFile (directory.join ⟨name⟩) e, rfl, .nil t,
            writeText_error hwrite, ?_⟩
          rw [writeFiles_cons, hwrite]
      | ok t₁ =>
          obtain ⟨t', hstored, heq⟩ | ⟨front, entry, back, t', e, rfl, hstored, hplace, heq⟩ := ih t₁
          · refine .inl ⟨t', .cons hwrite hstored, ?_⟩
            rw [writeFiles_cons, hwrite]
            simp only [heq]
            rfl
          · refine .inr ⟨(name, file) :: front, entry, back, t', e, rfl, .cons hwrite hstored,
              hplace, ?_⟩
            rw [writeFiles_cons, hwrite]
            simp only [heq]
            rfl

/-- How publishing can end: without a directory, with all files written, or at the first file that
cannot be. -/
theorem publish_cases (t : FileTree) (directory : Path) (withManifest : Bool) (cs : List Chunk)
    (context : Context) :
    (∃ made cause, t.makeAll directory = (made, .error cause) ∧
      publish t directory withManifest cs context = (made, .error (.outputDirectory cause))) ∨
    ∃ made, t.makeAll directory = (made, .ok ()) ∧
      ((∃ t', Stored directory made (outputFiles directory withManifest cs context) t' ∧
        publish t directory withManifest cs context =
          (t', .ok ⟨writtenFiles directory context.bundle,
            manifest cs (writtenFiles directory context.bundle), context.diagnostics⟩)) ∨
      ∃ front file back t' e,
        outputFiles directory withManifest cs context = front ++ file :: back ∧
        Stored directory made front t' ∧ t'.writePlace? (directory.join ⟨file.1⟩) = none ∧
        publish t directory withManifest cs context = (t', .error e)) := by
  cases hmake : t.makeAll directory with
  | mk made result =>
      cases result with
      | error cause =>
          refine .inl ⟨made, cause, rfl, ?_⟩
          simp only [publish, writeBundle, hmake]
      | ok _ =>
          refine .inr ⟨made, rfl, ?_⟩
          obtain ⟨t₁, hstored, hwrite⟩ | ⟨front, entry, back, t₁, e, hsplit, hstored, hplace, hwrite⟩ :=
            writeFiles_cases directory made context.bundle
          · cases withManifest with
            | false =>
                refine .inl ⟨t₁, ?_, ?_⟩
                · rw [outputFiles, if_neg (by simp), List.append_nil]
                  exact hstored
                · simp only [publish, writeBundle, hmake, hwrite]
                  rfl
            | true =>
                rw [outputFiles, if_pos rfl]
                cases hlast : t₁.writeText (directory.join ⟨manifestName⟩)
                    (Json.prettyObject (manifest cs (writtenFiles directory context.bundle))) with
                | ok t' =>
                    refine .inl ⟨t', hstored.append (.cons hlast (.nil t')), ?_⟩
                    simp only [publish, writeBundle, hmake, hwrite, writeManifest, hlast, if_true]
                    rfl
                | error e =>
                    refine .inr ⟨_, _, [], t₁, .manifest e, rfl, hstored, writeText_error hlast, ?_⟩
                    simp only [publish, writeBundle, hmake, hwrite, writeManifest, hlast, if_true]
                    rfl
          · obtain ⟨behind, hfiles⟩ : ∃ behind, outputFiles directory withManifest cs context =
                front.map nameAndText ++ nameAndText entry :: behind := by
              rw [outputFiles, hsplit, List.map_append, List.map_cons, List.append_assoc,
                List.cons_append]
              exact ⟨_, rfl⟩
            refine .inr ⟨_, _, behind, t₁, e, hfiles, hstored, hplace, ?_⟩
            simp only [publish, writeBundle, hmake, hwrite]

/-- No other output is written to the place of the one with this name. -/
def HasOwnPlace (t : FileTree) (directory : Path) (files : List (String × String)) (name : String) :
    Prop :=
  ∀ file ∈ files, file.1 ≠ name →
    (t.makeAll directory).1.writePlace? (directory.join ⟨file.1⟩) ≠
      (t.makeAll directory).1.writePlace? (directory.join ⟨name⟩)

instance (t : FileTree) (directory : Path) (files : List (String × String)) (name : String) :
    Decidable (HasOwnPlace t directory files name) :=
  inferInstanceAs (Decidable (∀ file ∈ files, _ → _))

/-- The build succeeds and publishes the file: it is in the bundle and among the outputs, and can
be read afterwards, unless another output was written to the same place. -/
def Publishes (f : ContentTransform) (t : FileTree) (c : Config) (r : BuildRequest) (name : String)
    (file : OutputFile) : Prop :=
  ∃ cs context t' report, prepareWith f t c r = .ok (cs, context) ∧
    buildWith f t c r = (t', .ok report) ∧ context.bundle.lookup name = some file ∧
    report.outputs = writtenFiles (directoryOf c r) context.bundle ∧
    (HasOwnPlace t (directoryOf c r)
      (outputFiles (directoryOf c r) c.output.manifest cs context) name →
      t'.readText ((directoryOf c r).join ⟨name⟩) = .ok file.source)

/-- The manifest is not written under the name of a unit. -/
theorem fileName_ne_manifestName (unit : Chunk) : unit.fileName ≠ manifestName := by
  intro h
  have hlast := congrArg (fun s : String => s.toList.getLast?) h
  simp [Chunk.fileName, manifestName] at hlast

/-- A build that succeeds has been prepared. -/
theorem exists_prepareWith {report : BuildReport} (h : buildWith f t c r = (t', .ok report)) :
    ∃ cs context, prepareWith f t c r = .ok (cs, context) := by
  unfold buildWith at h
  cases hprepare : prepareWith f t c r with
  | error e => simp [hprepare] at h
  | ok prepared => exact ⟨prepared.1, prepared.2, rfl⟩

/-- A build that succeeds has written all its files, and lists those of its bundle. -/
theorem stored_of_buildWith {report : BuildReport} (h : buildWith f t c r = (t', .ok report))
    (hprepare : prepareWith f t c r = .ok (cs, context)) :
    ∃ made, t.makeAll (directoryOf c r) = (made, .ok ()) ∧
      Stored (directoryOf c r) made
        (outputFiles (directoryOf c r) c.output.manifest cs context) t' ∧
      report.outputs = writtenFiles (directoryOf c r) context.bundle := by
  unfold buildWith at h
  rw [hprepare] at h
  obtain ⟨made, cause, -, hpublish⟩ | ⟨made, hmake, hwritten⟩ :=
    publish_cases t (directoryOf c r) c.output.manifest cs context
  · cases hpublish.symm.trans h
  · obtain ⟨t₁, hstored, hpublish⟩ | ⟨front, entry, back, t₁, e, -, -, -, hpublish⟩ := hwritten
    · obtain ⟨rfl, hreport⟩ := Prod.mk.inj (hpublish.symm.trans h)
      exact ⟨made, hmake, hstored, by rw [← Except.ok.inj hreport]⟩
    · cases hpublish.symm.trans h

/-- A build that has a place for each of its files succeeds. -/
theorem exists_report (hprepare : prepareWith f t c r = .ok (cs, context))
    (hmake : t.makeAll (directoryOf c r) = (made, .ok ()))
    (hplaces : ∀ name ∈ manifestName :: context.bundle.names,
      (made.writePlace? ((directoryOf c r).join ⟨name⟩)).isSome = true) :
    ∃ t' report, buildWith f t c r = (t', .ok report) := by
  unfold buildWith
  rw [hprepare]
  obtain ⟨made', cause, herror, -⟩ | ⟨made', hmade, hwritten⟩ :=
    publish_cases t (directoryOf c r) c.output.manifest cs context
  · cases hmake.symm.trans herror
  · obtain ⟨rfl, -⟩ := Prod.mk.inj (hmake.symm.trans hmade)
    obtain ⟨t', -, hpublish⟩ | ⟨front, file, back, t', e, hfiles, hstored, hplace, -⟩ := hwritten
    · exact ⟨t', _, hpublish⟩
    · have hname : file.1 ∈ manifestName :: context.bundle.names := by
        have hmem : file ∈ outputFiles (directoryOf c r) c.output.manifest cs context := by
          simp [hfiles]
        obtain hentry | hmanifest := List.mem_append.mp hmem
        · obtain ⟨entry, hlisted, rfl⟩ := List.mem_map.mp hentry
          exact List.mem_cons_of_mem _ (List.mem_map_of_mem hlisted)
        · split at hmanifest
          · rw [List.mem_singleton.mp hmanifest]
            exact List.mem_cons_self
          · cases hmanifest
      have hsome := hplaces file.1 hname
      rw [hstored.writePlace?_eq] at hplace
      rw [hplace] at hsome
      cases hsome

theorem exists_report_of_isOk (h : (buildWith f t c r).2.isOk = true) :
    ∃ t' report, buildWith f t c r = (t', .ok report) := by
  cases hresult : (buildWith f t c r).2 with
  | error e =>
      rw [hresult] at h
      cases h
  | ok report => exact ⟨_, report, Prod.ext rfl hresult⟩

theorem publishes_of_lookup {report : BuildReport} {name : String} {file : OutputFile}
    (h : buildWith f t c r = (t', .ok report)) (hprepare : prepareWith f t c r = .ok (cs, context))
    (hordered : context.bundle.Ordered) (hlookup : context.bundle.lookup name = some file)
    (hname : name ≠ manifestName) : Publishes f t c r name file := by
  obtain ⟨made, hmake, hstored, houtputs⟩ := stored_of_buildWith h hprepare
  refine ⟨cs, context, t', report, hprepare, h, hlookup, houtputs, fun hown => ?_⟩
  have hmem : (name, file.source) ∈
      outputFiles (directoryOf c r) c.output.manifest cs context :=
    List.mem_append_left _ (List.mem_map_of_mem (Listing.mem_of_lookup hlookup))
  refine hstored.readText_eq hmem fun other hother hplace => ?_
  have hsame : other.1 = name := by
    by_contra hne
    have hapart := hown other hother hne
    rw [hmake] at hapart
    exact hapart hplace
  -- A name is in the bundle once, and the manifest is not in it.
  obtain hentry | hmanifest := List.mem_append.mp hother
  · obtain ⟨⟨other, otherFile⟩, hlisted, rfl⟩ := List.mem_map.mp hentry
    obtain rfl : other = name := hsame
    rw [hordered.lookup_of_mem hlisted, Option.some.injEq] at hlookup
    exact congrArg OutputFile.source hlookup
  · split at hmanifest
    · rw [List.mem_singleton.mp hmanifest] at hsame
      exact absurd hsame.symm hname
    · cases hmanifest

/-- Writing has stopped at a file: the ones in front have been written, each to the place that its
path has in the tree with its new directories. -/
structure Interrupted (t made t' : FileTree) (directory : Path) (files : List (String × String))
    (front : List (String × String)) (file : String × String) : Prop where
  prefixed : ∃ back, files = front ++ file :: back
  places : ∀ file ∈ front, (made.writePlace? (directory.join ⟨file.1⟩)).isSome = true
  stopped : made.writePlace? (directory.join ⟨file.1⟩) = none
  entry : ∀ l, t'.find? l =
    ((lastAt? made directory front l).map fun text => .file text.toUTF8).or (made.find? l)
  /-- Nothing has changed exactly when no directory was made and the files were there before. -/
  unchanged_iff : (∀ l, t'.find? l = t.find? l) ↔ (∀ l, made.find? l = t.find? l) ∧
    ∀ l text, lastAt? made directory front l = some text → t.find? l = some (.file text.toUTF8)

/-- What a failed build leaves in the tree. A failure before anything is written leaves it alone.
One behind that leaves the directories that were made, where nothing was before, and the files in
front of the one that cannot be written. -/
theorem build_error (f : ContentTransform) (t : FileTree) (c : Config) (r : BuildRequest)
    {t' : FileTree} {e : Failure} (h : buildWith f t c r = (t', .error e)) :
    (prepareWith f t c r = .error e ∧ t' = t) ∨
    ∃ cs context made result, prepareWith f t c r = .ok (cs, context) ∧
      t.makeAll (directoryOf c r) = (made, result) ∧ Extended t made ∧
      (((∃ cause, result = .error cause) ∧ t' = made) ∨
        result = .ok () ∧ ∃ front file, Interrupted t made t' (directoryOf c r)
          (outputFiles (directoryOf c r) c.output.manifest cs context) front file) := by
  unfold buildWith at h
  cases hprepare : prepareWith f t c r with
  | error cause =>
      rw [hprepare] at h
      cases h
      exact .inl ⟨rfl, rfl⟩
  | ok prepared =>
      obtain ⟨cs, context⟩ := prepared
      rw [hprepare] at h
      have hmade := extended_makeAll t (directoryOf c r)
      obtain ⟨made, cause, hmake, hpublish⟩ | ⟨made, hmake, hwritten⟩ :=
        publish_cases t (directoryOf c r) c.output.manifest cs context
      · rw [hmake] at hmade
        refine .inr ⟨cs, context, made, .error cause, rfl, hmake, hmade, .inl ⟨⟨cause, rfl⟩, ?_⟩⟩
        exact ((Prod.mk.inj (hpublish.symm.trans h)).1).symm
      · rw [hmake] at hmade
        refine .inr ⟨cs, context, made, .ok (), rfl, hmake, hmade, .inr ⟨rfl, ?_⟩⟩
        obtain ⟨t₁, -, hpublish⟩ | ⟨front, file, back, t₁, e₁, hfiles, hstored, hplace, hpublish⟩ :=
          hwritten
        · cases hpublish.symm.trans h
        · obtain ⟨rfl, -⟩ := Prod.mk.inj (hpublish.symm.trans h)
          rw [hstored.writePlace?_eq] at hplace
          exact ⟨front, file, ⟨back, hfiles⟩, hstored.isSome_writePlace?, hplace, hstored.find?_eq,
            hstored.unchanged_iff hmade⟩

/-- Two scripts; the name of the second entrypoint leads into a directory that no build makes. -/
def nestedProject : FileTree :=
  ⟨[(["src"], .directory), (["src", "a.js"], .file "1;\n".toUTF8),
    (["src", "b.js"], .file "2;\n".toUTF8)], []⟩

def nestedConfig : Config :=
  ⟨⟨"nested", "0.1.0"⟩, [("a", "src/a.js"), ("b/c", "src/b.js")], Config.standardOutput,
    Config.standardStyles, ⟨"/"⟩⟩

theorem exists_error_nestedProject :
    ∃ t' e, buildWith .minify nestedProject nestedConfig ⟨none, none⟩ = (t', .error e) ∧
      t'.readText ⟨"/dist/a.js"⟩ = .ok "// src/a.js\n1;\n" := by
  have herror : (buildWith .minify nestedProject nestedConfig ⟨none, none⟩).2.isOk = false := by
    decide +kernel
  cases hresult : (buildWith .minify nestedProject nestedConfig ⟨none, none⟩).2 with
  | ok report =>
      rw [hresult] at herror
      cases herror
  | error e => exact ⟨_, e, Prod.ext rfl hresult, by decide +kernel⟩

theorem build_error_nested :
    ∃ t' e cs context made front file,
      buildWith .minify nestedProject nestedConfig ⟨none, none⟩ = (t', .error e) ∧
      prepareWith .minify nestedProject nestedConfig ⟨none, none⟩ = .ok (cs, context) ∧
      Interrupted nestedProject made t' ⟨"/dist"⟩ (outputFiles ⟨"/dist"⟩ true cs context) front
        file := by
  obtain ⟨t', e, hbuild, hread⟩ := exists_error_nestedProject
  obtain ⟨-, rfl⟩ | ⟨cs, context, made, result, hprepare, hmake, -, hstopped⟩ :=
    build_error .minify nestedProject nestedConfig ⟨none, none⟩ hbuild
  · exact absurd hread (by decide +kernel)
  · obtain ⟨⟨cause, rfl⟩, -⟩ | ⟨-, front, file, hinterrupted⟩ := hstopped
    · have hok : (nestedProject.makeAll (directoryOf nestedConfig ⟨none, none⟩)).2.isOk = true := by
        decide +kernel
      rw [hmake] at hok
      cases hok
    · exact ⟨t', e, cs, context, made, front, file, hbuild, hprepare, hinterrupted⟩

/-- The build of these two scripts fails, and has written the first of its files. -/
theorem build_error_written :
    ∃ t' e, build nestedProject nestedConfig ⟨none, none⟩ = (t', .error e) ∧
      nestedProject.find? ["dist", "a.js"] = none ∧
      t'.find? ["dist", "a.js"] ≠ nestedProject.find? ["dist", "a.js"] := by
  obtain ⟨t', e, hbuild, -⟩ := exists_error_nestedProject
  have hnone : nestedProject.find? ["dist", "a.js"] = none := by decide +kernel
  have hwritten : ((buildWith .minify nestedProject nestedConfig ⟨none, none⟩).1.find?
      ["dist", "a.js"]).isSome = true := by decide +kernel
  rw [hbuild] at hwritten
  refine ⟨t', e, hbuild, hnone, fun hsame => ?_⟩
  rw [hsame, hnone] at hwritten
  cases hwritten

end StyleBundler.Build
