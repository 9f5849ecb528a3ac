import EditorServices.Config.Sources
import EditorServices.Proofs.Config.Merging
import EditorServices.Proofs.Json.DistinctNames
import EditorServices.Proofs.Lists
import EditorServices.Proofs.Paths

/-!
# `Proofs.Config.Precedence` — which source a setting is taken from

The files of the user, those of the directories from the root down and the variable contribute in this
order, and what is checked in the end has at each path what the last of them says that says anything.

A load asks the tree twice about a file of the project, whether it is one and then what is in it. The first
question is about the path as it is written and the second one goes along the directories, so they agree
because the directory is in normal form.

A directory may hold a plain and a commented file, and the two names have no rank of their own. In a directory of
the project the plain file is read after the commented one, wherever the directory is on the way from the root, so
there the plain file wins. In the directory of the user it is read first, so there the commented file wins. A
directory that is met twice, on the way and as that of the user, is one of the project: its files are read again
after those of the user.

## Contents
- **Places.** `Config.places`, `objectAt`, `Loadable`.
- **Contributions.** `contributions`, what the loads of all files and of the variable give together.
- **Gathering.** Loads that do not fail, `result_gather`.
- **Precedence.** `load_lays_contributions_in_order`.
- **Last places.** A place after which nothing settles a path decides it.
- **Gathered sources.** They are the contributions of the places, `eq_contributions_of_gather`.
- **Two files of one directory.** `Rivals`, `ranking_by_directory`, and that the ranks differ.
-/

namespace EditorServices.Config

open Json

/-! ## Places -/

/-- The directories on the way from the root down to a directory. -/
def directoriesTo (directory : String) : List String :=
  (Path.components directory.toList).inits.map Path.ofNames

/-- Where a file of the project may be, the farthest place first. -/
def projectPlaces (directory : String) : List String :=
  (directoriesTo directory).flatMap fun d => [Path.child d commentedName, Path.child d plainName]

/-- Where a file may be, that of the user first. -/
def places (env : Environment) (directory : String) : List String :=
  [Path.child (UserDirectory.config env) plainName, Path.child (UserDirectory.config env) commentedName] ++
    projectPlaces directory

/-- What is at a place. -/
def foundAt (w : World) (path : String) : FileTree.Found :=
  w.tree.findFrom w.cwd (String.ofList (Path.tidy path.toList))

/-- The object at a place; what cannot be read as one counts as empty. -/
def objectAt (w : World) (path : String) : Members :=
  match foundAt w path with
  | .file bytes =>
    match readBytes w.env bytes with
    | .object ms => ms
    | _ => []
  | _ => []

/-- Nothing at a place ends the load. -/
structure Loadable (w : World) (path : String) : Prop where
  found : ∀ why, foundAt w path ≠ .refused why
  placed : ∀ bytes, foundAt w path = .file bytes → readBytes w.env bytes ≠ .misplacedToken
  shallow : ∀ bytes, foundAt w path = .file bytes → readBytes w.env bytes ≠ .tooDeep

/-- Reading the place is enough to tell. -/
instance (w : World) (path : String) : Decidable (Loadable w path) :=
  match hfound : foundAt w path with
  | .refused why => .isFalse fun h => h.found why hfound
  | .nothing => .isTrue ⟨by simp [hfound], by simp [hfound], by simp [hfound]⟩
  | .directory => .isTrue ⟨by simp [hfound], by simp [hfound], by simp [hfound]⟩
  | .lockedFile => .isTrue ⟨by simp [hfound], by simp [hfound], by simp [hfound]⟩
  | .lockedDirectory => .isTrue ⟨by simp [hfound], by simp [hfound], by simp [hfound]⟩
  | .file bytes =>
    match hread : readBytes w.env bytes with
    | .misplacedToken => .isFalse fun h => h.placed bytes hfound hread
    | .tooDeep => .isFalse fun h => h.shallow bytes hfound hread
    | .object _ => .isTrue ⟨by simp [hfound], by simp [hfound, hread], by simp [hfound, hread]⟩
    | .otherValue => .isTrue ⟨by simp [hfound], by simp [hfound, hread], by simp [hfound, hread]⟩
    | .unreadable _ => .isTrue ⟨by simp [hfound], by simp [hfound, hread], by simp [hfound, hread]⟩

/-- The variable is unset or empty, or it holds an object. -/
def VariableLoadable (env : Environment) : Prop :=
  ∀ text, env.nonEmpty? contentVariable = some text → ∃ data, Json.readConfig text.toList = .ok (.obj data)

/-! ## Contributions -/

/-- The objects at some places that hold anything. -/
def contributionsAt (w : World) (paths : List String) : List Source :=
  paths.filterMap fun path => if (objectAt w path).isEmpty then none else some ⟨path, objectAt w path⟩

/-- The object in the variable, which contributes even if it is empty. -/
def contributionOfVariable (env : Environment) : List Source :=
  match env.nonEmpty? contentVariable with
  | none => []
  | some text =>
    match Json.readConfig text.toList with
    | .ok (.obj data) => [⟨contentVariable, data⟩]
    | _ => []

/-- What contributes to the configuration of a directory, the weakest first. -/
def contributions (w : World) (directory : String) : List Source :=
  contributionsAt w (places w.env directory) ++ contributionOfVariable w.env

/-- What was read of a file has no name twice. -/
theorem distinct_of_readBytes {env : Environment} {bytes : Bytes} {ms : Members}
    (h : readBytes env bytes = .object ms) : (obj ms).Distinct := by
  unfold readBytes at h
  split at h
  · unfold readText at h
    dsimp only at h
    split at h
    · next hcommented =>
      cases h
      exact distinct_of_readCommented hcommented
    all_goals cases h
  · cases h

theorem distinct_empty : (obj []).Distinct := .obj List.nodup_nil fun p hp => by cases hp

theorem distinct_objectAt (w : World) (path : String) : (obj (objectAt w path)).Distinct := by
  unfold objectAt
  split
  · split
    · next hread => exact distinct_of_readBytes hread
    · exact distinct_empty
  · exact distinct_empty

theorem distinct_of_mem_contributions {w : World} {directory : String} {s : Source}
    (h : s ∈ contributions w directory) : (obj s.data).Distinct := by
  rcases List.mem_append.mp h with hfile | hvariable
  · obtain ⟨path, -, hpath⟩ := List.mem_filterMap.mp hfile
    split at hpath
    · cases hpath
    · cases hpath
      exact distinct_objectAt w path
  · unfold contributionOfVariable at hvariable
    split at hvariable
    · cases hvariable
    · split at hvariable
      · next hread =>
        cases List.mem_singleton.mp hvariable
        exact distinct_of_readConfig hread
      · cases hvariable

/-! ## Gathering -/

variable {w : World}

/-- The load of a file gives the object at its place. -/
theorem result_loadFile {path : String} (h : Loadable w path) (name : String) :
    (loadFile w.env name (foundAt w path)).result = .ok (objectAt w path) := by
  unfold objectAt loadFile
  cases hfound : foundAt w path with
  | nothing | directory | lockedFile | lockedDirectory => rfl
  | refused why => exact absurd hfound (h.found why)
  | file bytes =>
    dsimp only
    cases hread : readBytes w.env bytes with
    | object ms => rfl
    | otherValue => rfl
    | unreadable why => rfl
    | misplacedToken => exact absurd hread (h.placed bytes hfound)
    | tooDeep => exact absurd hread (h.shallow bytes hfound)

/-- The loads of files give what is at their places, without the empty objects. -/
theorem result_gatherFiles {paths : List String} (h : ∀ path ∈ paths, Loadable w path) (message : String) :
    (gatherFiles w message paths).result = .ok (contributionsAt w paths) := by
  induction paths with
  | nil => rfl
  | cons path paths ih =>
    have hrest := ih fun p hp => h p (List.mem_cons_of_mem _ hp)
    have hload := result_loadFile (h path List.mem_cons_self) (String.ofList (Path.tidy path.toList))
    unfold foundAt at hload
    unfold gatherFiles
    dsimp only
    rw [result_bind hload]
    unfold contributionsAt at hrest ⊢
    rw [List.filterMap_cons]
    split
    · exact hrest
    · rw [result_bind rfl, result_bind hrest]
      rfl

/-- Files that contribute nothing can be left out. -/
theorem contributionsAt_filter {paths : List String} {keep : String → Bool}
    (h : ∀ path ∈ paths, objectAt w path ≠ [] → keep path = true) :
    contributionsAt w (paths.filter keep) = contributionsAt w paths := by
  induction paths with
  | nil => rfl
  | cons path paths ih =>
    have hrest := ih fun p hp => h p (List.mem_cons_of_mem _ hp)
    unfold contributionsAt at hrest ⊢
    rw [List.filter_cons]
    split
    · rw [List.filterMap_cons, List.filterMap_cons, hrest]
    · next hdropped =>
      have hnothing : objectAt w path = [] := by
        by_contra hne
        exact hdropped (h path List.mem_cons_self hne)
      rw [hrest, List.filterMap_cons, hnothing]
      rfl

theorem result_gatherVariable (h : VariableLoadable w.env) :
    (gatherVariable w.env).result = .ok (contributionOfVariable w.env) := by
  unfold gatherVariable contributionOfVariable
  cases hset : w.env.nonEmpty? contentVariable with
  | none => rfl
  | some text =>
    obtain ⟨data, hdata⟩ := h text hset
    simp only [hdata]
    rfl

section Project

variable {names : List (List Char)}

/-- The names of the files are names of components. -/
theorem isName_plainName : Path.IsName plainName.toList := ⟨by decide, by decide, by decide, by decide⟩

theorem isName_commentedName : Path.IsName commentedName.toList :=
  ⟨by decide, by decide, by decide, by decide⟩

/-- A file of the project has a path in normal form. -/
theorem exists_names_of_projectPlace (h : ∀ p ∈ names, Path.IsName p) {path : String}
    (hpath : path ∈ projectPlaces (Path.ofNames names)) :
    ∃ parts, path = Path.ofNames parts ∧ ∀ p ∈ parts, Path.IsName p := by
  obtain ⟨d, hd, hin⟩ := List.mem_flatMap.mp hpath
  obtain ⟨above, habove, rfl⟩ := List.mem_map.mp hd
  rw [Path.components_ofNames h] at habove
  replace habove := (List.mem_inits _ _).mp habove
  have hnames : ∀ p ∈ above, Path.IsName p := fun p hp => h p (habove.subset hp)
  have hextended : ∀ {name : String}, Path.IsName name.toList →
      ∃ parts, Path.child (Path.ofNames above) name = Path.ofNames parts ∧ ∀ p ∈ parts, Path.IsName p := by
    intro name hname
    refine ⟨above ++ [name.toList], Path.child_ofNames hnames hname, fun p hp => ?_⟩
    rcases List.mem_append.mp hp with hp | hp
    · exact hnames p hp
    · rwa [List.mem_singleton.mp hp]
  rw [List.mem_cons, List.mem_singleton] at hin
  rcases hin with rfl | rfl
  · exact hextended isName_commentedName
  · exact hextended isName_plainName

theorem foundAt_ofNames (h : ∀ p ∈ names, Path.IsName p) :
    foundAt w (Path.ofNames names) = w.tree.findFrom w.cwd (Path.ofNames names) := by
  rw [foundAt, Path.tidy_ofNames h]

/-- What contributes is a file of the tree. -/
theorem isFile_of_objectAt (h : ∀ p ∈ names, Path.IsName p) (hheld : objectAt w (Path.ofNames names) ≠ []) :
    w.tree.isFile (Path.ofNames names) = true := by
  unfold objectAt at hheld
  split at hheld
  · next bytes hfound =>
    rw [foundAt_ofNames h] at hfound
    exact FileTree.isFile_of_findFrom h hfound
  · exact absurd rfl hheld

theorem projectFiles_eq (h : ∀ p ∈ names, Path.IsName p) :
    projectFiles w.tree (Path.ofNames names) = (projectPlaces (Path.ofNames names)).filter w.tree.isFile := by
  rw [projectFiles, Path.reverse_ancestors_ofNames h, projectPlaces, directoriesTo, Path.components_ofNames h]

/-- The plain file of the directory itself is at one of the places. -/
theorem plain_mem_projectPlaces (h : ∀ p ∈ names, Path.IsName p) :
    Path.child (Path.ofNames names) plainName ∈ projectPlaces (Path.ofNames names) := by
  refine List.mem_flatMap.mpr ⟨Path.ofNames names, ?_, List.mem_cons_of_mem _ List.mem_cons_self⟩
  rw [directoriesTo, Path.components_ofNames h]
  exact List.mem_map_of_mem ((List.mem_inits _ _).mpr (List.prefix_refl _))

/-- What holds something is a file, so nothing that contributes is dropped by asking for files first. -/
theorem contributionsAt_projectFiles (h : ∀ p ∈ names, Path.IsName p) :
    contributionsAt w (projectFiles w.tree (Path.ofNames names)) =
      contributionsAt w (projectPlaces (Path.ofNames names)) := by
  rw [projectFiles_eq h]
  apply contributionsAt_filter
  intro path hpath hheld
  obtain ⟨parts, rfl, hparts⟩ := exists_names_of_projectPlace h hpath
  exact isFile_of_objectAt hparts hheld

theorem result_gatherProject (h : ∀ p ∈ names, Path.IsName p)
    (hfiles : ∀ path ∈ projectPlaces (Path.ofNames names), Loadable w path) :
    (gatherProject w (Path.ofNames names)).result =
      .ok (contributionsAt w (projectPlaces (Path.ofNames names))) := by
  -- a load begins with the plain file of the directory itself, and fails if it cannot be looked up
  have hlookup : ∀ why, w.tree.findFrom w.cwd (Path.child (Path.ofNames names) plainName) ≠ .refused why := by
    have hplace := plain_mem_projectPlaces h
    obtain ⟨parts, hpath, hparts⟩ := exists_names_of_projectPlace h hplace
    have hfound := (hfiles _ hplace).found
    rw [hpath] at hfound ⊢
    rwa [foundAt_ofNames hparts] at hfound
  have hloadable : ∀ path ∈ projectFiles w.tree (Path.ofNames names), Loadable w path := by
    intro path hpath
    rw [projectFiles_eq h] at hpath
    exact hfiles path (List.mem_of_mem_filter hpath)
  unfold gatherProject
  split
  · next why hrefused => exact absurd hrefused (hlookup why)
  · rw [result_gatherFiles hloadable, contributionsAt_projectFiles h]

/-- **The sources of a directory are its contributions**, if nothing ends the load. -/
theorem result_gather (h : ∀ p ∈ names, Path.IsName p)
    (hfiles : ∀ path ∈ places w.env (Path.ofNames names), Loadable w path)
    (hvariable : VariableLoadable w.env) :
    (gather w (Path.ofNames names)).result = .ok (contributions w (Path.ofNames names)) := by
  have hloadable : ∀ path ∈ userFiles w.env, Loadable w path :=
    fun path hpath => hfiles path (List.mem_append_left _ hpath)
  have huser := result_gatherFiles hloadable "loaded global config"
  have hproject := result_gatherProject h fun path hpath => hfiles path (List.mem_append_right _ hpath)
  unfold gather
  rw [result_bind huser, result_bind hproject, result_bind (result_gatherVariable hvariable)]
  have hplaces : contributionsAt w (places w.env (Path.ofNames names)) =
      contributionsAt w (userFiles w.env) ++ contributionsAt w (projectPlaces (Path.ofNames names)) :=
    List.filterMap_append
  rw [contributions, hplaces]
  rfl

end Project

/-- A new manager keeps its directory in normal form and has loaded nothing. -/
theorem Manager.names_of_new {start : String} {m : Manager} (hcwd : w.cwd.toList.head? = some '/')
    (hnew : Manager.new w.cwd start = .ok m) :
    ∃ names, m.directory = Path.ofNames names ∧ (∀ p ∈ names, Path.IsName p) ∧ m.loaded = none := by
  unfold Manager.new at hnew
  split at hnew
  · next path hpath =>
    cases hnew
    obtain ⟨names, rfl, hnames⟩ := Path.exists_names_of_resolve? hcwd hpath
    exact ⟨names, rfl, hnames, rfl⟩
  · cases hnew

/-- What a manager gives that has loaded nothing is made up by the sources it gathers. -/
theorem Manager.result_get {m : Manager} {sources : List Source} (hfresh : m.loaded = none)
    (hgather : (gather w m.directory).result = .ok sources) : (m.get w).2.result = settingsOf sources := by
  have hload : (load w m.directory).result =
      (settingsOf sources).map fun settings => (settings, sources.map (·.name)) := by
    unfold load
    rw [result_bind hgather]
    cases settingsOf sources <;> rfl
  unfold Manager.get
  rw [hfresh]
  dsimp only
  rw [hload]
  cases settingsOf sources <;> rfl

/-! ## Precedence -/

theorem merged_eq_mergeAll (sources : List Source) : merged sources = mergeAll (sources.map (·.data)) := by
  rw [merged, mergeAll, List.foldl_map]

/-- **The last contribution that says anything about a path decides it.** Contributions are laid over each
other in their order, the object that is checked holds nothing that none of them has, and the sources of a
loaded configuration are what contributed. -/
theorem load_lays_contributions_in_order {start : String} {m : Manager}
    (hcwd : w.cwd.toList.head? = some '/') (hnew : Manager.new w.cwd start = .ok m)
    (hfiles : ∀ path ∈ places w.env m.directory, Loadable w path) (hvariable : VariableLoadable w.env) :
    let sources := contributions w m.directory
    let objects := sources.map (·.data)
    let handed := mergeAll objects
    ((load w m.directory).result =
      match Settings.check (.obj handed) with
      | .valid s => .ok (s, sources.map (·.name))
      | .invalid issues => .error (.config ((sources.getLast?.map (·.name)).getD noSource)
          (errorCount issues.length "Config") issues)) ∧
    (∀ path v, v.isObject = false → ((obj handed).at? path = some v ↔ LastHolds objects path v)) ∧
    (∀ name path, ((obj handed).at? (name :: path)).isSome = true →
      ∃ ms ∈ objects, ((obj ms).at? (name :: path)).isSome = true) ∧
    ∀ s, (m.get w).2.result = .ok s → (m.get w).1.sources = sources.map (·.name) := by
  intro sources objects handed
  obtain ⟨dir, hdir, rfl⟩ : ∃ dir, Path.resolve? w.cwd start = some dir ∧ m = ⟨dir, none⟩ := by
    unfold Manager.new at hnew
    split at hnew
    · next path hpath =>
      cases hnew
      exact ⟨path, hpath, rfl⟩
    · cases hnew
  -- a manager keeps its directory in normal form, which is what the two questions of a load need
  obtain ⟨names, rfl, hnames⟩ := Path.exists_names_of_resolve? hcwd hdir
  have hdistinct : ∀ ms ∈ objects, (obj ms).Distinct := by
    intro ms hms
    obtain ⟨s, hs, rfl⟩ := List.mem_map.mp hms
    exact distinct_of_mem_contributions hs
  have hload : (load w (Path.ofNames names)).result =
      match Settings.check (.obj handed) with
      | .valid s => .ok (s, sources.map (·.name))
      | .invalid issues => .error (.config ((sources.getLast?.map (·.name)).getD noSource)
          (errorCount issues.length "Config") issues) := by
    unfold load
    rw [result_bind (result_gather hnames hfiles hvariable)]
    cases hcheck : Settings.check (.obj handed) with
    | valid s =>
      have hsettings : settingsOf (contributions w (Path.ofNames names)) = .ok s := by
        rw [settingsOf, merged_eq_mergeAll, hcheck]
      rw [hsettings]
      rfl
    | invalid issues =>
      have hsettings : settingsOf (contributions w (Path.ofNames names)) =
          .error (.config ((sources.getLast?.map (·.name)).getD noSource)
            (errorCount issues.length "Config") issues) := by
        rw [settingsOf, merged_eq_mergeAll, hcheck]
      rw [hsettings]
      rfl
  refine ⟨hload, fun path v hv => at?_mergeAll_iff hdistinct hv path,
    fun name path => exists_of_at?_mergeAll hdistinct, fun s hs => ?_⟩
  unfold Manager.get at hs ⊢
  dsimp only at hs ⊢
  rw [hload] at hs ⊢
  cases hcheck : Settings.check (.obj handed) with
  | valid s => simp only [Manager.sources, Option.map_some, Option.getD_some]
  | invalid issues =>
    rw [hcheck] at hs
    cases hs

/-- The text of a configuration of the server alone. -/
def serverText (fields : Members) : String := Json.toText .wire (.obj [("lsp", .obj fields)])

/-- A world where the user, a project and the variable configure a server. -/
def layeredWorld : World where
  tree := ⟨[("/c/glint.json", utf8Encode (serverText [("languageId", .str "a")]).toList),
    ("/p/glint.jsonc", utf8Encode (serverText [("languageId", .str "b")]).toList)], []⟩
  env := [("GLINT_CONFIG_DIR", "/c"), ("GLINT_CONFIG_CONTENT", serverText [("settleDelayMs", .int 1)])]
  cwd := "/p"

/-- There the language is that of the project and the delay that of the variable, and all three are listed. -/
theorem layeredWorld_language :
    Manager.new layeredWorld.cwd "." = .ok ⟨"/p", none⟩ ∧
    (∀ path ∈ places layeredWorld.env "/p", Loadable layeredWorld path) ∧
    VariableLoadable layeredWorld.env ∧
    LastHolds ((contributions layeredWorld "/p").map (·.data)) ["lsp", "languageId"] (.str "b") ∧
    LastHolds ((contributions layeredWorld "/p").map (·.data)) ["lsp", "settleDelayMs"] (.int 1) ∧
    (Manager.get layeredWorld ⟨"/p", none⟩).1.sources =
      ["/c/glint.json", "/p/glint.jsonc", "GLINT_CONFIG_CONTENT"] := by
  have hnew : Manager.new layeredWorld.cwd "." = .ok ⟨"/p", none⟩ := by cbv
  have hfiles : ∀ path ∈ places layeredWorld.env "/p", Loadable layeredWorld path := by decide +kernel
  have hvariable : VariableLoadable layeredWorld.env := by
    intro text htext
    have hset : layeredWorld.env.nonEmpty? contentVariable =
        some (serverText [("settleDelayMs", .int 1)]) := by
      decide +kernel
    cases hset.symm.trans htext
    exact ⟨[("lsp", .obj [("settleDelayMs", .int 1)])], by decide +kernel⟩
  have hsources : contributions layeredWorld "/p" =
      [⟨"/c/glint.json", [("lsp", .obj [("languageId", .str "a")])]⟩,
        ⟨"/p/glint.jsonc", [("lsp", .obj [("languageId", .str "b")])]⟩,
        ⟨"GLINT_CONFIG_CONTENT", [("lsp", .obj [("settleDelayMs", .int 1)])]⟩] := by
    decide +kernel
  obtain ⟨-, hholds, -, hnames⟩ := load_lays_contributions_in_order (by decide) hnew hfiles hvariable
  refine ⟨hnew, hfiles, hvariable, (hholds _ _ rfl).mp ?_, (hholds _ _ rfl).mp ?_, ?_⟩
  · rw [hsources]
    decide +kernel
  · rw [hsources]
    decide +kernel
  · have hget : (Manager.get layeredWorld ⟨"/p", none⟩).2.result.toOption.isSome = true := by decide +kernel
    cases hresult : (Manager.get layeredWorld ⟨"/p", none⟩).2.result with
    | error e =>
      rw [hresult] at hget
      cases hget
    | ok s =>
      rw [hnames s hresult, hsources]
      rfl

/-! ## Last places -/

/-- What is found at a place stands among the contributions, with those of other places on both sides. -/
theorem contributions_of_places {directory place : String} {before after : List String}
    (h : places w.env directory = before ++ place :: after) (hheld : objectAt w place ≠ []) :
    contributions w directory = contributionsAt w before ++
      ⟨place, objectAt w place⟩ :: (contributionsAt w after ++ contributionOfVariable w.env) := by
  have hhere : (objectAt w place).isEmpty = false := by simpa using hheld
  unfold contributions contributionsAt
  rw [h, List.filterMap_append, List.filterMap_cons, hhere]
  simp

/-- **A place after which nothing settles a path decides it.** -/
theorem at?_of_last_place {directory place : String} {before after : List String}
    (h : places w.env directory = before ++ place :: after) {path : List String} {v : Json}
    (hv : v.isObject = false) (hat : (obj (objectAt w place)).at? path = some v)
    (hlater : ∀ s ∈ contributionsAt w after ++ contributionOfVariable w.env, ¬ (obj s.data).Settles path) :
    (obj (merged (contributions w directory))).at? path = some v := by
  have hheld : objectAt w place ≠ [] := by
    intro hnone
    rw [hnone] at hat
    cases path with
    | nil =>
      cases hat
      cases hv
    | cons name path => cases hat
  have hdistinct : ∀ ms ∈ (contributions w directory).map (·.data), (obj ms).Distinct := by
    intro ms hms
    obtain ⟨s, hs, rfl⟩ := List.mem_map.mp hms
    exact distinct_of_mem_contributions hs
  rw [merged_eq_mergeAll]
  apply (at?_mergeAll_iff hdistinct hv path).mpr
  rw [contributions_of_places h hheld, List.map_append, List.map_cons]
  refine ⟨_, _, _, rfl, hat, ?_⟩
  intro later hmem
  obtain ⟨s, hs, rfl⟩ := List.mem_map.mp hmem
  exact hlater s hs

/-! ## Gathered sources -/

/-- A load that does not fail meets nothing that ends it. -/
theorem loadable_of_loadFile {path name : String} {ms : Members}
    (h : (loadFile w.env name (foundAt w path)).result = .ok ms) : Loadable w path := by
  unfold loadFile at h
  refine ⟨?_, ?_, ?_⟩
  · intro why hfound
    rw [hfound] at h
    cases h
  · intro bytes hfound hread
    rw [hfound] at h
    dsimp only at h
    rw [hread] at h
    cases h
  · intro bytes hfound hread
    rw [hfound] at h
    dsimp only at h
    rw [hread] at h
    cases h

theorem loadable_of_gatherFiles {message : String} {paths : List String} {sources : List Source}
    (h : (gatherFiles w message paths).result = .ok sources) : ∀ path ∈ paths, Loadable w path := by
  induction paths generalizing sources with
  | nil => simp
  | cons path paths ih =>
    unfold gatherFiles at h
    obtain ⟨data, hload, h⟩ := result_bind_eq_ok h
    have hrest : ∀ p ∈ paths, Loadable w p := by
      split at h
      · exact ih h
      · obtain ⟨-, -, h⟩ := result_bind_eq_ok h
        obtain ⟨more, hmore, -⟩ := result_bind_eq_ok h
        exact ih hmore
    intro p hp
    rcases List.mem_cons.mp hp with rfl | hp
    · exact loadable_of_loadFile hload
    · exact hrest p hp

theorem eq_contributionOfVariable {sources : List Source}
    (h : (gatherVariable w.env).result = .ok sources) : sources = contributionOfVariable w.env := by
  have hloadable : VariableLoadable w.env := by
    intro text htext
    unfold gatherVariable at h
    rw [htext] at h
    dsimp only at h
    split at h
    · cases h
    · next data hread => exact ⟨data, hread⟩
    · cases h
  rw [result_gatherVariable hloadable] at h
  exact (Except.ok.inj h).symm

/-- **What a load gathers are the contributions of its directory.** -/
theorem eq_contributions_of_gather {names : List (List Char)} (h : ∀ p ∈ names, Path.IsName p)
    {sources : List Source} (hgather : (gather w (Path.ofNames names)).result = .ok sources) :
    sources = contributions w (Path.ofNames names) := by
  unfold gather at hgather
  obtain ⟨user, huser, hgather⟩ := result_bind_eq_ok hgather
  obtain ⟨project, hproject, hgather⟩ := result_bind_eq_ok hgather
  obtain ⟨variable', hvariable, hgather⟩ := result_bind_eq_ok hgather
  cases hgather
  have huser' : user = contributionsAt w (userFiles w.env) := by
    rw [result_gatherFiles (loadable_of_gatherFiles huser)] at huser
    exact (Except.ok.inj huser).symm
  have hproject' : project = contributionsAt w (projectPlaces (Path.ofNames names)) := by
    unfold gatherProject at hproject
    split at hproject
    · cases hproject
    · rw [result_gatherFiles (loadable_of_gatherFiles hproject), contributionsAt_projectFiles h] at hproject
      exact (Except.ok.inj hproject).symm
  rw [huser', hproject', eq_contributionOfVariable hvariable]
  unfold contributions places contributionsAt
  rw [List.filterMap_append]
  rfl

/-! ## Two files of one directory -/

/-- The two files that a directory may hold. -/
def filesIn (d : String) : List String := [Path.child d plainName, Path.child d commentedName]

/-- Both files of a directory hold a value at a path, not the same one, and no other source says anything about
the path. -/
structure Rivals (w : World) (sources : List Source) (d : String) (path : List String) (inPlain inCommented : Json) :
    Prop where
  plain : (obj (objectAt w (Path.child d plainName))).at? path = some inPlain
  commented : (obj (objectAt w (Path.child d commentedName))).at? path = some inCommented
  plain_isObject : inPlain.isObject = false
  commented_isObject : inCommented.isObject = false
  differ : inPlain ≠ inCommented
  alone : ∀ s ∈ sources, s.name ∉ filesIn d → ¬ (obj s.data).Settles path

/-- Being rivals can be told from the files. -/
instance (w : World) (sources : List Source) (d : String) (path : List String) (inPlain inCommented : Json) :
    Decidable (Rivals w sources d path inPlain inCommented) :=
  decidable_of_iff
    ((obj (objectAt w (Path.child d plainName))).at? path = some inPlain ∧
      (obj (objectAt w (Path.child d commentedName))).at? path = some inCommented ∧
      inPlain.isObject = false ∧ inCommented.isObject = false ∧ inPlain ≠ inCommented ∧
      ∀ s ∈ sources, s.name ∉ filesIn d → ¬ (obj s.data).Settles path)
    ⟨fun ⟨plain, commented, hplain, hcommented, differ, alone⟩ =>
      ⟨plain, commented, hplain, hcommented, differ, alone⟩,
      fun h => ⟨h.plain, h.commented, h.plain_isObject, h.commented_isObject, h.differ, h.alone⟩⟩

theorem isName_of_mem_names {name : String} (h : name ∈ [plainName, commentedName]) : Path.IsName name.toList := by
  simp only [List.mem_cons, List.not_mem_nil, or_false] at h
  rcases h with rfl | rfl
  · exact isName_plainName
  · exact isName_commentedName

theorem mem_filesIn {d file : String} : file ∈ filesIn d ↔ ∃ name ∈ [plainName, commentedName], file = Path.child d name := by
  simp [filesIn]

/-- The variable has not the name of a file. -/
theorem contentVariable_not_mem_filesIn (d : String) : contentVariable ∉ filesIn d := by
  intro h
  obtain ⟨name, hname, heq⟩ := mem_filesIn.mp h
  have hends := Path.suffix_child d (isName_of_mem_names hname)
  rw [← heq] at hends
  simp only [List.mem_cons, List.not_mem_nil, or_false] at hname
  rcases hname with rfl | rfl
  · exact absurd hends (by decide)
  · exact absurd hends (by decide)

theorem name_of_mem_contributionsAt {paths : List String} {s : Source} (h : s ∈ contributionsAt w paths) :
    s.name ∈ paths := by
  obtain ⟨path, hpath, hs⟩ := List.mem_filterMap.mp h
  split at hs
  · cases hs
  · cases hs
    exact hpath

theorem name_of_mem_contributionOfVariable {env : Environment} {s : Source}
    (h : s ∈ contributionOfVariable env) : s.name = contentVariable := by
  unfold contributionOfVariable at h
  split at h
  · cases h
  · split at h
    · cases List.mem_singleton.mp h
      rfl
    · cases h

/-- After places that are none of a directory's files nothing settles what its files are rivals for. -/
theorem Rivals.settled {directory d : String} {path : List String} {inPlain inCommented : Json}
    (h : Rivals w (contributions w directory) d path inPlain inCommented) {before after : List String}
    (hplaces : places w.env directory = before ++ after) (hafter : ∀ file ∈ after, file ∉ filesIn d) :
    ∀ s ∈ contributionsAt w after ++ contributionOfVariable w.env, ¬ (obj s.data).Settles path := by
  intro s hs
  refine h.alone s ?_ ?_
  · unfold contributions contributionsAt
    rw [hplaces, List.filterMap_append, List.append_assoc]
    exact List.mem_append_right _ hs
  · rcases List.mem_append.mp hs with hs | hs
    · exact hafter s.name (name_of_mem_contributionsAt hs)
    · rw [name_of_mem_contributionOfVariable hs]
      exact contentVariable_not_mem_filesIn d

/-- In a directory of the project the plain file is the last one to be read. -/
theorem Rivals.plain_wins {names : List (List Char)} (hnames : ∀ p ∈ names, Path.IsName p) {d : String}
    {path : List String} {inPlain inCommented : Json}
    (h : Rivals w (contributions w (Path.ofNames names)) d path inPlain inCommented)
    (hd : d ∈ directoriesTo (Path.ofNames names)) :
    (obj (merged (contributions w (Path.ofNames names)))).at? path = some inPlain := by
  obtain ⟨above, below, hsplit, hbelow⟩ := exists_last_of_mem hd
  have hdirectory : ∀ e ∈ directoriesTo (Path.ofNames names),
      ∃ parts, e = Path.ofNames parts ∧ ∀ p ∈ parts, Path.IsName p := by
    intro e he
    obtain ⟨parts, hparts, rfl⟩ := List.mem_map.mp he
    rw [Path.components_ofNames hnames] at hparts
    exact ⟨parts, rfl, fun p hp => hnames p (((List.mem_inits _ _).mp hparts).subset hp)⟩
  have hplaces : places w.env (Path.ofNames names) =
      (userFiles w.env ++ (above.flatMap fun e => [Path.child e commentedName, Path.child e plainName]) ++
        [Path.child d commentedName]) ++ Path.child d plainName ::
        below.flatMap fun e => [Path.child e commentedName, Path.child e plainName] := by
    unfold places projectPlaces
    rw [hsplit]
    simp [userFiles]
  apply at?_of_last_place hplaces h.plain_isObject h.plain
  refine h.settled (hplaces.trans (List.append_cons _ _ _)) ?_
  -- the directories further down are others, and so are their files
  intro file hfile hmem
  obtain ⟨e, he, hin⟩ := List.mem_flatMap.mp hfile
  obtain ⟨name, hname, rfl⟩ := mem_filesIn.mp hmem
  obtain ⟨parts, rfl, hparts⟩ := hdirectory d hd
  obtain ⟨others, rfl, hothers⟩ := hdirectory e (hsplit ▸ List.mem_append_right _ (List.mem_cons_of_mem _ he))
  have hsame : parts = others := by
    simp only [List.mem_cons, List.not_mem_nil, or_false] at hin
    rcases hin with heq | heq
    · exact Path.child_ofNames_inj hparts hothers (isName_of_mem_names hname) isName_commentedName heq
    · exact Path.child_ofNames_inj hparts hothers (isName_of_mem_names hname) isName_plainName heq
  exact hbelow (hsame ▸ he)

/-- In the directory of the user the commented file is the last one to be read, unless the directory is one of the
project. -/
theorem Rivals.commented_wins {directory d : String} {path : List String} {inPlain inCommented : Json}
    (h : Rivals w (contributions w directory) d path inPlain inCommented) (hd : d = UserDirectory.config w.env)
    (hapart : ∀ file ∈ filesIn d, file ∉ projectPlaces directory) :
    (obj (merged (contributions w directory))).at? path = some inCommented := by
  have hplaces : places w.env directory =
      [Path.child d plainName] ++ Path.child d commentedName :: projectPlaces directory := by
    rw [hd]
    rfl
  apply at?_of_last_place hplaces h.commented_isObject h.commented
  refine h.settled (hplaces.trans (List.append_cons _ _ _)) ?_
  intro file hfile hmem
  exact hapart file hmem hfile

/-- **Where two files of one directory set a key, the directory decides which of them wins**: in a directory of
the project, at any depth, it is the plain one, and in that of the user the commented one. -/
theorem ranking_by_directory {start : String} {m : Manager} {sources : List Source}
    (hcwd : w.cwd.toList.head? = some '/') (hnew : Manager.new w.cwd start = .ok m)
    (hgather : (gather w m.directory).result = .ok sources) {d : String} {path : List String}
    {inPlain inCommented : Json} (hrivals : Rivals w sources d path inPlain inCommented) :
    (m.get w).2.result = settingsOf sources ∧
    (d ∈ directoriesTo m.directory → (obj (merged sources)).at? path = some inPlain) ∧
    (d = UserDirectory.config w.env → (∀ file ∈ filesIn d, file ∉ projectPlaces m.directory) →
      (obj (merged sources)).at? path = some inCommented) := by
  obtain ⟨names, hdirectory, hnames, hfresh⟩ := Manager.names_of_new hcwd hnew
  refine ⟨Manager.result_get hfresh hgather, ?_⟩
  rw [hdirectory] at hgather ⊢
  have hsources := eq_contributions_of_gather hnames hgather
  rw [hsources] at hrivals ⊢
  constructor
  · intro hd
    exact hrivals.plain_wins hnames hd
  · intro hd hapart
    exact hrivals.commented_wins hd hapart

/-- A user and a project with two files each, which set the language and the delay of a server. -/
def bothFiles : World where
  tree := ⟨[("/c/glint.json", utf8Encode (serverText [("languageId", .str "a")]).toList),
    ("/c/glint.jsonc", utf8Encode (serverText [("languageId", .str "b")]).toList),
    ("/p/glint.json", utf8Encode (serverText [("settleDelayMs", .int 1)]).toList),
    ("/p/glint.jsonc", utf8Encode (serverText [("settleDelayMs", .int 2)]).toList)], []⟩
  env := [("GLINT_CONFIG_DIR", "/c")]
  cwd := "/p"

/-- What its four files contribute. -/
def bothFilesSources : List Source :=
  [⟨"/c/glint.json", [("lsp", .obj [("languageId", .str "a")])]⟩,
    ⟨"/c/glint.jsonc", [("lsp", .obj [("languageId", .str "b")])]⟩,
    ⟨"/p/glint.jsonc", [("lsp", .obj [("settleDelayMs", .int 2)])]⟩,
    ⟨"/p/glint.json", [("lsp", .obj [("settleDelayMs", .int 1)])]⟩]

theorem new_bothFiles : Manager.new bothFiles.cwd "." = .ok ⟨"/p", none⟩ := by cbv

theorem gather_bothFiles : (gather bothFiles "/p").result = .ok bothFilesSources := by decide +kernel

theorem rivals_language : Rivals bothFiles bothFilesSources "/c" ["lsp", "languageId"] (.str "a") (.str "b") := by
  decide +kernel

theorem rivals_delay : Rivals bothFiles bothFilesSources "/p" ["lsp", "settleDelayMs"] (.int 1) (.int 2) := by
  decide +kernel

/-- There the language is that of the user's commented file, and the delay that of the project's plain one. -/
theorem bothFiles_ranked :
    Manager.new bothFiles.cwd "." = .ok ⟨"/p", none⟩ ∧
    (gather bothFiles "/p").result = .ok bothFilesSources ∧
    Rivals bothFiles bothFilesSources "/c" ["lsp", "languageId"] (.str "a") (.str "b") ∧
    (obj (merged bothFilesSources)).at? ["lsp", "languageId"] = some (.str "b") ∧
    Rivals bothFiles bothFilesSources "/p" ["lsp", "settleDelayMs"] (.int 1) (.int 2) ∧
    (obj (merged bothFilesSources)).at? ["lsp", "settleDelayMs"] = some (.int 1) := by
  obtain ⟨-, -, hcommented⟩ := ranking_by_directory (by decide) new_bothFiles gather_bothFiles rivals_language
  obtain ⟨-, hplain, -⟩ := ranking_by_directory (by decide) new_bothFiles gather_bothFiles rivals_delay
  exact ⟨new_bothFiles, gather_bothFiles, rivals_language, hcommented (by decide +kernel) (by decide +kernel),
    rivals_delay, hplain (by decide +kernel)⟩

/-- **The two names do not rank the same everywhere**: in one load the commented file of the user wins, and the
plain file of the project. -/
theorem files_rank_apart :
    ¬ ∀ (w : World) (start : String) (m : Manager) (sources : List Source) (project : String)
      (path path' : List String) (inPlain inCommented inPlain' inCommented' : Json),
      w.cwd.toList.head? = some '/' → Manager.new w.cwd start = .ok m →
      (gather w m.directory).result = .ok sources → project ∈ directoriesTo m.directory →
      (∀ file ∈ filesIn (UserDirectory.config w.env), file ∉ projectPlaces m.directory) →
      Rivals w sources (UserDirectory.config w.env) path inPlain inCommented →
      Rivals w sources project path' inPlain' inCommented' →
      ((obj (merged sources)).at? path = some inPlain ↔ (obj (merged sources)).at? path' = some inPlain') := by
  intro h
  have hsame := h bothFiles "." ⟨"/p", none⟩ bothFilesSources "/p" ["lsp", "languageId"] ["lsp", "settleDelayMs"]
    (.str "a") (.str "b") (.int 1) (.int 2) (by decide) new_bothFiles gather_bothFiles (by decide +kernel)
    (by decide +kernel) rivals_language rivals_delay
  exact absurd hsame (by decide +kernel)

end EditorServices.Config
