import MultiarchTuning.Go.Strings
import MultiarchTuning.Go.Os

namespace MultiarchTuning

/-!
# System config — registry CA certificates

`registryCertTuple` pairs a registry name with the CA certificate to trust for it.  The
registry name encodes a port as `host..port`, since `:` cannot stand in the key it comes
from; `getFolderName` turns the first `..` back into `:`, and `writeToFile` writes the
certificate to `DockerCertsDir/<folder>/ca.crt` through the calls of package `os`.

* `RegistryCertTuple.getFolderName` — `strings.Replace(t.registry, "..", ":", 1)`.
* `RegistryCertTuple.writeToFile` — `os.Stat` of the folder, `os.MkdirAll` when `os.IsNotExist`
  says it is missing, then `os.Create` and `WriteString` of `ca.crt`; `writeToFile_cases` says
  once what each run can do.
* `writeToFile_outcome` — a successful run writes one file and makes only directories; an
  error is the `mkdir` error of the folder or of a parent, the `open` error of `ca.crt`, or the
  `write` error after which `ca.crt` holds a proper prefix of the certificate.  A file where
  the folder should be is not replaced: the run stops at the `open` error.
* `getFolderName_decodes_port` — for a host with no `..` that does not end in a dot, the
  folder is `host:port`, every name without `..` is its own folder, and a successful
  `writeToFile` leaves the certificate in that folder.
* `getFolderName_trailing_dot` — a host ending in a dot loses that dot instead: the first
  `..` of `host...port` is not the separator.
* `writeToFile_keeps_other_certs` — for names that are one plain folder name, the folder name
  decodes back to the registry name, so the certificates of two different registries go to
  two different files, and any run of `writeToFile` for one leaves the other as it was.
-/

/-- `DockerCertsDir`. -/
def DockerCertsDir : String := "/tmp/docker/certs.d"

/-- `registryCertTuple`. -/
structure RegistryCertTuple where
  registry : String
  cert : String
deriving DecidableEq

namespace RegistryCertTuple

/-- `(registryCertTuple).getFolderName`. -/
def getFolderName (t : RegistryCertTuple) : String := Strings.replace t.registry ".." ":" 1

/-- `(registryCertTuple).writeToFile`.  `defer f.Close()` changes nothing the model sees. -/
def writeToFile (t : RegistryCertTuple) (fs : FileSystem) :
    Except (PathError × FileSystem) FileSystem := do
  let absoluteFolderPath := DockerCertsDir ++ "/" ++ t.getFolderName
  let fs ← if isNotExist (fs.stat absoluteFolderPath) then fs.mkdirAll absoluteFolderPath
    else pure fs
  let absoluteFilePath := DockerCertsDir ++ "/" ++ t.getFolderName ++ "/ca.crt"
  let (fs, f) ← (fs.create absoluteFilePath).mapError (·, fs)
  fs.writeString f absoluteFilePath t.cert

/-! ### The paths -/

theorem certPath_data (folder : String) :
    (folder ++ "/ca.crt").data = folder.data ++ '/' :: "ca.crt".data := by
  simp only [String.data_append]

theorem plainName_caCrt : '/' ∉ "ca.crt".data ∧ FileSystem.PlainName "ca.crt" := by
  refine ⟨by decide, ?_, ?_, ?_⟩ <;> decide

/-- `ca.crt` is the entry of the directory the folder path leads to. -/
theorem target_certPath (fs : FileSystem) (folder : String) :
    fs.target (folder ++ "/ca.crt") =
      (fs.walk [] (splitPath folder.data)).map fun parent => .entry parent "ca.crt" false :=
  FileSystem.target_of_data (certPath_data folder) plainName_caCrt.1 plainName_caCrt.2

theorem splitPath_folderPath {f : String} (hf : '/' ∉ f.data) :
    splitPath (DockerCertsDir ++ "/" ++ f).data = ["", "tmp", "docker", "certs.d", f] := by
  have hdata : (DockerCertsDir ++ "/" ++ f).data = DockerCertsDir.data ++ '/' :: f.data := by
    simp only [String.data_append, List.append_assoc]
    rfl
  have hdir : splitPath DockerCertsDir.data = ["", "tmp", "docker", "certs.d"] := by decide
  rw [hdata, splitPath_append_slash, splitPath_of_not_mem hf, hdir]
  rfl

/-! ### What a run does -/

theorem writeToFile_eq (t : RegistryCertTuple) (fs : FileSystem) :
    t.writeToFile fs =
      (if isNotExist (fs.stat (DockerCertsDir ++ "/" ++ t.getFolderName)) then
          fs.mkdirAll (DockerCertsDir ++ "/" ++ t.getFolderName) else .ok fs).bind fun fs₁ =>
        match fs₁.create (DockerCertsDir ++ "/" ++ t.getFolderName ++ "/ca.crt") with
        | .error e => .error (e, fs₁)
        | .ok (fs₂, pos) =>
          fs₂.writeString pos (DockerCertsDir ++ "/" ++ t.getFolderName ++ "/ca.crt") t.cert := by
  have hk : ∀ fs₁ : FileSystem,
      ((fs₁.create (DockerCertsDir ++ "/" ++ t.getFolderName ++ "/ca.crt")).mapError (·, fs₁)).bind
        (fun d => d.1.writeString d.2 (DockerCertsDir ++ "/" ++ t.getFolderName ++ "/ca.crt") t.cert) =
      match fs₁.create (DockerCertsDir ++ "/" ++ t.getFolderName ++ "/ca.crt") with
        | .error e => .error (e, fs₁)
        | .ok (fs₂, pos) =>
          fs₂.writeString pos (DockerCertsDir ++ "/" ++ t.getFolderName ++ "/ca.crt") t.cert := by
    intro fs₁
    cases fs₁.create (DockerCertsDir ++ "/" ++ t.getFolderName ++ "/ca.crt") <;> rfl
  unfold writeToFile
  by_cases hn : isNotExist (fs.stat (DockerCertsDir ++ "/" ++ t.getFolderName))
  · simp only [bind, hk, hn, if_true]
  · simp only [bind, hk, hn, if_false, Bool.false_eq_true]
    rfl

/-- **Every run of `writeToFile`.**  The folder step leaves a file system `fs₁` that is `fs`
    with new directories.  Then the run ends in the `mkdir` error of the folder or a parent, in
    the `open` error of `ca.crt`, or it writes `ca.crt`, the entry of a directory, in full or
    up to the `write` error. -/
theorem writeToFile_cases (t : RegistryCertTuple) (fs : FileSystem) :
    ∃ fs₁, fs.ChangesOnly fs₁ [] ∧ (fs.Wf → fs₁.Wf) ∧
      ((∃ e, t.writeToFile fs = .error (e, fs₁) ∧ e.op = "mkdir" ∧
          e.path.data <+: (DockerCertsDir ++ "/" ++ t.getFolderName).data) ∨
        (∃ e, t.writeToFile fs = .error (e, fs₁) ∧ e.op = "open" ∧
          e.path = DockerCertsDir ++ "/" ++ t.getFolderName ++ "/ca.crt") ∨
        ∃ parent name, fs₁.target (DockerCertsDir ++ "/" ++ t.getFolderName ++ "/ca.crt") =
            .ok (.entry parent name false) ∧ fs₁.nodes (parent ++ [name]) ≠ some .dir ∧
          (t.writeToFile fs = .ok (fs₁.setNode (parent ++ [name]) (.file t.cert)) ∨
            ∃ k < t.cert.length, t.writeToFile fs =
              .error (⟨"write", DockerCertsDir ++ "/" ++ t.getFolderName ++ "/ca.crt", .enospc⟩,
                fs₁.setNode (parent ++ [name]) (.file ⟨t.cert.data.take k⟩)))) := by
  have hstage : ∀ r, (if isNotExist (fs.stat (DockerCertsDir ++ "/" ++ t.getFolderName)) then
        fs.mkdirAll (DockerCertsDir ++ "/" ++ t.getFolderName) else .ok fs) = r →
      fs.ChangesOnly (after r) [] ∧ (fs.Wf → (after r).Wf) ∧
        ∀ e fs', r = .error (e, fs') →
          e.op = "mkdir" ∧ e.path.data <+: (DockerCertsDir ++ "/" ++ t.getFolderName).data := by
    by_cases hn : isNotExist (fs.stat (DockerCertsDir ++ "/" ++ t.getFolderName))
    · simp only [hn, if_true]
      rintro r rfl
      exact FileSystem.mkdirAll_spec fs (DockerCertsDir ++ "/" ++ t.getFolderName)
    · simp only [hn, if_false, Bool.false_eq_true]
      rintro r rfl
      exact ⟨.refl _ _, id, fun _ _ h => nomatch h⟩
  rw [writeToFile_eq]
  cases hr : (if isNotExist (fs.stat (DockerCertsDir ++ "/" ++ t.getFolderName)) then
      fs.mkdirAll (DockerCertsDir ++ "/" ++ t.getFolderName) else .ok fs) with
  | error r =>
    obtain ⟨e, fs₁⟩ := r
    obtain ⟨hc, hw, herr⟩ := hstage _ hr
    exact ⟨fs₁, hc, hw, .inl ⟨e, rfl, herr e fs₁ rfl⟩⟩
  | ok fs₁ =>
    obtain ⟨hc, hw, -⟩ := hstage _ hr
    refine ⟨fs₁, hc, hw, ?_⟩
    simp only [Except.bind]
    cases hcreate : fs₁.create (DockerCertsDir ++ "/" ++ t.getFolderName ++ "/ca.crt") with
    | error e => exact .inr (.inl ⟨e, rfl, FileSystem.create_error hcreate⟩)
    | ok p =>
      obtain ⟨fs₂, pos⟩ := p
      obtain ⟨parent, name, ht, rfl, hnd, rfl⟩ := FileSystem.create_ok hcreate
      refine .inr (.inr ⟨parent, name, ht, hnd, ?_⟩)
      cases hwrite : (fs₁.setNode (parent ++ [name]) (.file "")).writeString (parent ++ [name])
          (DockerCertsDir ++ "/" ++ t.getFolderName ++ "/ca.crt") t.cert with
      | ok fs' =>
        exact .inl (by simp only [hwrite, FileSystem.writeString_ok hwrite, FileSystem.setNode_setNode])
      | error r =>
        obtain ⟨e, fs'⟩ := r
        obtain ⟨rfl, k, hk, rfl⟩ := FileSystem.writeString_error hwrite
        exact .inr ⟨k, hk, by simp only [hwrite, FileSystem.setNode_setNode]⟩

/-- A successful `writeToFile` leaves the certificate in `<folder>/ca.crt`. -/
theorem writeToFile_files {t : RegistryCertTuple} {fs fs' : FileSystem}
    (h : t.writeToFile fs = .ok fs') :
    fs'.files (DockerCertsDir ++ "/" ++ t.getFolderName ++ "/ca.crt") = some t.cert := by
  obtain ⟨fs₁, -, -, ⟨e, he, -⟩ | ⟨e, he, -⟩ | ⟨parent, name, ht, hnd, hw | ⟨k, -, hw⟩⟩⟩ :=
    writeToFile_cases t fs
  · rw [h] at he; cases he
  · rw [h] at he; cases he
  · rw [h] at hw; cases hw
    exact FileSystem.files_setNode_of_target ht hnd
  · rw [h] at hw; cases hw

/-- A name with no `..` is its own folder. -/
theorem getFolderName_of_not_infix (t : RegistryCertTuple) (h : ¬ "..".data <:+: t.registry.data) :
    t.getFolderName = t.registry := by
  simp only [getFolderName, Strings.replace]
  rw [Strings.replaceList_of_not_infix (by decide) h]

/-- The first `..` after a host with no `..` that does not end in a dot is the separator. -/
theorem getFolderName_port {h : String} (p cert : String) (hdots : ¬ "..".data <:+: h.data)
    (hlast : h.data.getLast? ≠ some '.') :
    (RegistryCertTuple.mk (h ++ ".." ++ p) cert).getFolderName = h ++ ":" ++ p := by
  simp only [getFolderName, Strings.replace, String.data_append, List.append_assoc,
    Strings.replaceList, List.cons_append, List.nil_append]
  rw [Strings.cutList_dots p.data hdots hlast]
  exact String.ext (by simp)

/-- **The port encoding is decoded.**  For a host `h` with no `..` that does not end in a dot
    and any port text `p`, the folder of `h..p` is `h:p`, and a successful `writeToFile`
    writes the certificate under `DockerCertsDir/h:p/`.  Every name without `..` is its own
    folder. -/
theorem getFolderName_decodes_port :
    (∀ h p cert : String, ¬ "..".data <:+: h.data → h.data.getLast? ≠ some '.' →
      (RegistryCertTuple.mk (h ++ ".." ++ p) cert).getFolderName = h ++ ":" ++ p ∧
      ∀ fs fs', (RegistryCertTuple.mk (h ++ ".." ++ p) cert).writeToFile fs = .ok fs' →
        fs'.files (DockerCertsDir ++ "/" ++ (h ++ ":" ++ p) ++ "/ca.crt") = some cert) ∧
    ∀ t : RegistryCertTuple, ¬ "..".data <:+: t.registry.data → t.getFolderName = t.registry := by
  refine ⟨fun h p cert hdots hlast => ⟨getFolderName_port p cert hdots hlast, fun fs fs' hw => ?_⟩,
    getFolderName_of_not_infix⟩
  rw [← getFolderName_port p cert hdots hlast]
  exact writeToFile_files hw

/-- The decoding at the registry `registry.example.com..5000`. -/
theorem getFolderName_decodes_example :
    (¬ "..".data <:+: "registry.example.com".data ∧
      "registry.example.com".data.getLast? ≠ some '.') ∧
    (RegistryCertTuple.mk ("registry.example.com" ++ ".." ++ "5000") "").getFolderName =
      "registry.example.com" ++ ":" ++ "5000" :=
  have hdots : ¬ "..".data <:+: "registry.example.com".data := by decide
  have hlast : "registry.example.com".data.getLast? ≠ some '.' := by decide
  ⟨⟨hdots, hlast⟩,
    (getFolderName_decodes_port.1 "registry.example.com" "5000" "" hdots hlast).1⟩

/-- **A fully qualified host ending in a dot.**  For every host `h ++ "."` with no `..`, the
    first `..` of `h...p` starts at the host's own dot: the folder is `h:.p`, not `h.:p`, as
    for `example.com...5000`. -/
theorem getFolderName_trailing_dot :
    (∀ h p cert : String, ¬ "..".data <:+: (h ++ ".").data →
      (RegistryCertTuple.mk (h ++ "." ++ ".." ++ p) cert).getFolderName = h ++ ":" ++ ("." ++ p) ∧
        h ++ ":" ++ ("." ++ p) ≠ h ++ "." ++ ":" ++ p) ∧
    (RegistryCertTuple.mk ("example.com." ++ ".." ++ "5000") "").getFolderName =
      "example.com:.5000" := by
  refine ⟨fun h p cert hdots => ⟨?_, fun heq => ?_⟩, by decide⟩
  · have hlast : h.data.getLast? ≠ some '.' := fun hl => hdots <| by
      obtain ⟨h', hh'⟩ : ∃ h', h.data = h' ++ ['.'] :=
        ⟨h.data.dropLast, (List.dropLast_append_getLast? _ hl).symm⟩
      exact ⟨h', [], by simp [hh']⟩
    have hreg : h ++ "." ++ ".." ++ p = h ++ ".." ++ ("." ++ p) := String.ext (by simp)
    rw [hreg]
    exact getFolderName_port _ cert (fun hi => hdots (hi.trans ⟨[], ['.'], by simp⟩)) hlast
  · have := congrArg (fun s : String => s.data.drop h.data.length) heq
    simp at this

/-! ### Registries that cannot share a folder -/

/-- A registry name that is one plain folder name: no `:` to decode, no `/`, and not `""` or
    `.`, which name `DockerCertsDir` itself. -/
def PlainRegistry (s : String) : Prop :=
  ':' ∉ s.data ∧ '/' ∉ s.data ∧ s ≠ "" ∧ s ≠ "."

instance : DecidablePred PlainRegistry := fun s =>
  inferInstanceAs (Decidable (':' ∉ s.data ∧ '/' ∉ s.data ∧ s ≠ "" ∧ s ≠ "."))

/-- Folder names decode back: for a registry name without `:`, putting `..` back for the
    first `:` of its folder name gives the name again. -/
theorem replace_getFolderName (t : RegistryCertTuple) (h : ':' ∉ t.registry.data) :
    Strings.replace t.getFolderName ":" ".." 1 = t.registry := by
  have hnone : Strings.cutList [':'] t.registry.data = none :=
    Strings.cutList_eq_none (List.cons_ne_nil _ _) fun hi =>
      h (hi.subset (List.mem_singleton_self _))
  apply String.ext
  change Strings.replaceList (Strings.replaceList t.registry.data ['.', '.'] [':'] 1) [':']
    ['.', '.'] 1 = t.registry.data
  cases hcut : Strings.cutList ['.', '.'] t.registry.data with
  | none => simp only [Strings.replaceList, hcut, hnone]
  | some p =>
    obtain ⟨before, after⟩ := p
    have hk := Strings.eq_of_cutList_eq_some hcut
    have hb : ':' ∉ before := fun hb => h (hk ▸ by simp [hb])
    simp only [Strings.replaceList, hcut, List.append_assoc, List.singleton_append,
      Strings.cutList_singleton_append hb]
    rw [hk, List.append_assoc]

/-- The folder of a plain registry name is one plain component. -/
theorem getFolderName_plain {t : RegistryCertTuple} (h : PlainRegistry t.registry) :
    '/' ∉ t.getFolderName.data ∧ FileSystem.PlainName t.getFolderName := by
  obtain ⟨-, hslash, hempty, hdot⟩ := h
  have hcolon : ∀ s : String, ':' ∈ s.data → FileSystem.PlainName s := fun s hs =>
    ⟨by rintro rfl; simp at hs, by rintro rfl; simp at hs, by rintro rfl; simp at hs⟩
  simp only [getFolderName, Strings.replace]
  cases hcut : Strings.cutList ['.', '.'] t.registry.data with
  | none =>
    have hdd : t.registry ≠ ".." := by rintro hr; simp [hr, Strings.cutList] at hcut
    simpa [Strings.replaceList, hcut] using ⟨hslash, hempty, hdot, hdd⟩
  | some p =>
    obtain ⟨before, after⟩ := p
    have hk := Strings.eq_of_cutList_eq_some hcut
    refine ⟨fun hs => hslash ?_, hcolon _ (by simp [Strings.replaceList, hcut])⟩
    simp only [Strings.replaceList, hcut, List.mem_append, List.mem_singleton] at hs
    rw [hk]
    simp only [List.mem_append]
    rcases hs with (hs | hs) | hs
    · exact .inl (.inl hs)
    · simp at hs
    · exact .inr hs

/-- In a tree, the `ca.crt` of a plain folder reads the node at
    `tmp/docker/certs.d/<folder>/ca.crt`. -/
theorem files_certPath {fs : FileSystem} (hwf : fs.Wf) {f : String} (hs : '/' ∉ f.data)
    (hp : FileSystem.PlainName f) :
    fs.files (DockerCertsDir ++ "/" ++ f ++ "/ca.crt") =
      match fs.nodes ["tmp", "docker", "certs.d", f, "ca.crt"] with
      | some (.file c) => some c
      | _ => none := by
  have hsplit : splitPath (DockerCertsDir ++ "/" ++ f ++ "/ca.crt").data =
      "" :: (["tmp", "docker", "certs.d", f] ++ ["ca.crt"]) := by
    rw [certPath_data, splitPath_append_slash, splitPath_folderPath hs,
      splitPath_of_not_mem plainName_caCrt.1]
    rfl
  have hcs : ∀ c ∈ ["tmp", "docker", "certs.d", f], FileSystem.PlainName c := by
    simp only [List.forall_mem_cons, List.not_mem_nil, false_implies, implies_true, and_true]
    exact ⟨⟨by decide, by decide, by decide⟩, ⟨by decide, by decide, by decide⟩,
      ⟨by decide, by decide, by decide⟩, hp⟩
  exact FileSystem.files_eq_of_wf hwf hsplit hcs plainName_caCrt.2

/-- The entry `os.Create` opens for a plain folder is `tmp/docker/certs.d/<folder>/ca.crt`. -/
theorem target_certPath_entry {fs : FileSystem} {f : String} (hs : '/' ∉ f.data)
    (hp : FileSystem.PlainName f) {parent : List String} {name : String}
    (ht : fs.target (DockerCertsDir ++ "/" ++ f ++ "/ca.crt") = .ok (.entry parent name false)) :
    parent ++ [name] = ["tmp", "docker", "certs.d", f, "ca.crt"] := by
  rw [target_certPath, splitPath_folderPath hs] at ht
  revert ht
  cases hwalk : fs.walk [] ["", "tmp", "docker", "certs.d", f] with
  | error e => simp [Except.map]
  | ok r =>
    simp only [Except.map, Except.ok.injEq, PathTarget.entry.injEq, and_imp]
    rintro rfl rfl -
    have hcs : ∀ c ∈ ["", "tmp", "docker", "certs.d", f], c ≠ "." ∧ c ≠ ".." := by
      simp only [List.forall_mem_cons, List.not_mem_nil, false_implies, implies_true, and_true]
      exact ⟨⟨by decide, by decide⟩, ⟨by decide, by decide⟩, ⟨by decide, by decide⟩,
        ⟨by decide, by decide⟩, hp.2⟩
    rw [FileSystem.walk_names hcs hwalk]
    simp [hp.1]

/-- In a tree, a run of `writeToFile` for a plain folder, whatever it returns, leaves a tree
    that differs from `fs` in new directories and in its own `ca.crt` only. -/
theorem writeToFile_changesOnly {t : RegistryCertTuple} {fs fs' : FileSystem} (hwf : fs.Wf)
    (hs : '/' ∉ t.getFolderName.data) (hp : FileSystem.PlainName t.getFolderName)
    (hres : t.writeToFile fs = .ok fs' ∨ ∃ e, t.writeToFile fs = .error (e, fs')) :
    fs.ChangesOnly fs' [["tmp", "docker", "certs.d", t.getFolderName, "ca.crt"]] ∧ fs'.Wf := by
  obtain ⟨fs₁, hc, hw, hcase⟩ := writeToFile_cases t fs
  obtain ⟨e, he⟩ | ⟨parent, name, ht, hnd, hcert⟩ :
      (∃ e, t.writeToFile fs = .error (e, fs₁)) ∨ _ := by
    rcases hcase with ⟨e, he, -⟩ | ⟨e, he, -⟩ | h
    exacts [.inl ⟨e, he⟩, .inl ⟨e, he⟩, .inr h]
  · rcases hres with h | ⟨e', h⟩ <;> rw [h] at he <;> cases he
    exact ⟨fun q _ => hc q (List.not_mem_nil q), hw hwf⟩
  have hwf₁ := hw hwf
  obtain ⟨c, rfl⟩ : ∃ c, fs' = fs₁.setNode (parent ++ [name]) (.file c) := by
    rcases hres with h | ⟨e', h⟩ <;> rcases hcert with hw' | ⟨k, -, hw'⟩ <;> rw [h] at hw' <;>
      cases hw' <;> exact ⟨_, rfl⟩
  refine ⟨?_, hwf₁.setNode (FileSystem.isDir_of_target hwf₁ ht) (.inr hnd)⟩
  rw [← target_certPath_entry hs hp ht]
  exact hc.trans (FileSystem.changesOnly_setNode _ _ _)

/-- **Certificates of different registries never overwrite each other.**  For two different
    registry names that are each one plain folder name, the folder name decodes back to the
    name, so the two folders differ; and in a tree, whatever a run of `writeToFile` for the
    second returns, the first one's `ca.crt` reads as it did. -/
theorem writeToFile_keeps_other_certs (t₁ t₂ : RegistryCertTuple) (fs : FileSystem) (hwf : fs.Wf)
    (h₁ : PlainRegistry t₁.registry) (h₂ : PlainRegistry t₂.registry)
    (hne : t₁.registry ≠ t₂.registry) :
    Strings.replace t₁.getFolderName ":" ".." 1 = t₁.registry ∧
      t₁.getFolderName ≠ t₂.getFolderName ∧
      ∀ fs', (t₂.writeToFile fs = .ok fs' ∨ ∃ e, t₂.writeToFile fs = .error (e, fs')) →
        fs'.files (DockerCertsDir ++ "/" ++ t₁.getFolderName ++ "/ca.crt") =
          fs.files (DockerCertsDir ++ "/" ++ t₁.getFolderName ++ "/ca.crt") := by
  have hfolder : t₁.getFolderName ≠ t₂.getFolderName := fun h =>
    hne (by rw [← replace_getFolderName t₁ h₁.1, ← replace_getFolderName t₂ h₂.1, h])
  refine ⟨replace_getFolderName t₁ h₁.1, hfolder, fun fs' hres => ?_⟩
  obtain ⟨hs₁, hp₁⟩ := getFolderName_plain h₁
  obtain ⟨hs₂, hp₂⟩ := getFolderName_plain h₂
  obtain ⟨hc, hwf'⟩ := writeToFile_changesOnly hwf hs₂ hp₂ hres
  rw [files_certPath hwf' hs₁ hp₁, files_certPath hwf hs₁ hp₁]
  rcases hc ["tmp", "docker", "certs.d", t₁.getFolderName, "ca.crt"]
      (by simpa using hfolder) with h | ⟨hnone, hdir⟩
  · rw [h]
  · rw [hnone, hdir]

/-- The registry `registry.example.com..5000` and the same host with no port. -/
theorem writeToFile_keeps_other_certs_example :
    (FileSystem.Wf ⟨fun _ => none, fun _ => false, fun _ => none⟩ ∧
      PlainRegistry "registry.example.com..5000" ∧ PlainRegistry "registry.example.com" ∧
      "registry.example.com..5000" ≠ "registry.example.com") ∧
    (Strings.replace (RegistryCertTuple.mk "registry.example.com..5000" "").getFolderName
          ":" ".." 1 = "registry.example.com..5000" ∧
      (RegistryCertTuple.mk "registry.example.com..5000" "").getFolderName ≠
        (RegistryCertTuple.mk "registry.example.com" "").getFolderName ∧
      ∀ fs', ((RegistryCertTuple.mk "registry.example.com" "").writeToFile
            ⟨fun _ => none, fun _ => false, fun _ => none⟩ = .ok fs' ∨
          ∃ e, (RegistryCertTuple.mk "registry.example.com" "").writeToFile
            ⟨fun _ => none, fun _ => false, fun _ => none⟩ = .error (e, fs')) →
        fs'.files (DockerCertsDir ++ "/" ++
          (RegistryCertTuple.mk "registry.example.com..5000" "").getFolderName ++ "/ca.crt") =
        FileSystem.files ⟨fun _ => none, fun _ => false, fun _ => none⟩ (DockerCertsDir ++ "/" ++
          (RegistryCertTuple.mk "registry.example.com..5000" "").getFolderName ++ "/ca.crt")) :=
  have hwf : FileSystem.Wf ⟨fun _ => none, fun _ => false, fun _ => none⟩ := fun _ _ h => by
    simp at h
  have h₁ : PlainRegistry "registry.example.com..5000" := by decide
  have h₂ : PlainRegistry "registry.example.com" := by decide
  have hne : "registry.example.com..5000" ≠ "registry.example.com" := by decide
  ⟨⟨hwf, h₁, h₂, hne⟩, writeToFile_keeps_other_certs ⟨_, ""⟩ ⟨_, ""⟩ _ hwf h₁ h₂ hne⟩

end RegistryCertTuple

end MultiarchTuning
