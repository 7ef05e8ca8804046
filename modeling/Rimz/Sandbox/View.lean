import Mathlib.Data.List.Dedup
import Mathlib.Data.List.Sort
import Rimz.Lib.Utf8

/-!
# The scoped view

`sandbox::plan` and `skills::plan_view`: the mounts of a scoped agent's view, and what backs a path
once they are made in order. The file system has no symbolic links, so that a path is resolved by
its components. What the skill directories list, the copy of the ssh config and the paths of the
process domain are readings. The environment's pins, the skipped skills and the copies themselves
are left out.
-/

namespace Rimz.Sandbox
open Rimz.Lib

/-- `std::path::Component`, in its order. -/
inductive Component where
  | rootDir
  | curDir
  | parentDir
  | normal (name : Bytes)
  deriving DecidableEq, Ord

/-- A path is its components: equality, order and `starts_with` compare them. -/
abbrev Path := List Component

namespace Path

/-- `PathBuf::from`. A `.` counts only at the head of a relative path. -/
def ofBytes (text : Bytes) : Path :=
  let names := ((text.splitOn 47).filter (· ≠ [])).map fun name =>
    if name = ascii "." then Component.curDir else if name = ascii ".." then .parentDir
    else .normal name
  if text.head? = some 47 then .rootDir :: names.filter (· ≠ .curDir)
  else names.take 1 ++ (names.drop 1).filter (· ≠ .curDir)

def isAbsolute (path : Path) : Bool := path.head? = some .rootDir

def join (path other : Path) : Path :=
  if other.isAbsolute then other else path ++ other.filter (· ≠ .curDir)

def startsWith (path base : Path) : Bool := decide (base <+: path)

def pop (path : Path) : Path :=
  match path.getLast? with
  | some (.normal _) => path.dropLast
  | _ => path

def normalizePathLexical (path : Path) : Path :=
  path.foldl (fun out component => match component with
    | .curDir => out
    | .parentDir => out.pop
    | component => out ++ [component]) []

end Path

/-- A `BTreeSet` of paths, in order. -/
def pathSet (paths : List Path) : List Path :=
  paths.dedup.insertionSort fun a b => (compare a b).isLE

inductive Mount where
  | bind (source target : Path)
  | roBind (source target : Path)
  | tmpfs (target : Path)
  | symlink (target path : Path)
  | remountRo (target : Path)

inductive SandboxErr where
  | invalidPath (path : Path)
  | tmpCollision (path : Path)
  | skillsNeedRoot (kind : String)
  | other (message : String)

inductive DirEntryKind where
  | bind
  | symlink (target : Path)
  deriving DecidableEq

structure DirEntry where
  name : Bytes
  source : Path
  kind : DirEntryKind

structure DirView where
  root : Path
  entries : List DirEntry
  shadows : List (Path × Path)

/-- What `plan_view` finds before it builds the view: whether the view differs from the directory,
the merged entries, the skipped ones and the rewritten copies of unlisted skills. -/
structure Listing where
  changed : Bool
  entries : List DirEntry
  skipped : List Bytes
  shadows : List (Path × Path)

/-- What a plan reads of the file system. `commondir` is the trimmed text of that file. -/
structure Files where
  cwd : Path
  present : Path → Bool
  gitAdminDir : Path → Option Path
  commondir : Path → Option Path
  listing : Path → Except SandboxErr Listing

def Files.canonicalize (fs : Files) (path : Path) : Option Path :=
  if fs.present path then some (fs.cwd.join path).normalizePathLexical else none

structure ProviderHome where
  source : Path
  target : Path

structure SandboxInputs where
  env : String → Option Bytes
  domainPaths : List Path
  cwd : Path
  projectRoot : Path
  worktree : Option Path
  checkout : Option Path
  addDirs : List Path
  readOnly : List Path
  tmpDir : Path
  providerHome : Option ProviderHome
  defaultHome : Option Path
  kind : String
  skillHome : Option Path
  callable : Bool
  /-- The copy that replaces the ssh config, its file and the file it replaces. -/
  sshConfig : Option (Path × Path × Path)

def validatePath (path : Path) : Except SandboxErr Unit :=
  let utf8 : Component → Bool
    | .normal name => utf8Error 0 name = none
    | _ => true
  if path.isAbsolute ∧ path.all utf8 then .ok () else .error (.invalidPath path)

/-- `plan_view` from its listing on. -/
def planView (fs : Files) (home : Path) (found : Listing) : Except SandboxErr (Option DirView) :=
  if !found.changed then .ok none
  else do
    let root := (fs.canonicalize home).getD home.normalizePathLexical
    validatePath root
    let entries := found.entries.filter fun entry => entry.name ∉ found.skipped
    entries.forM fun entry => validatePath entry.source
    let entries := entries.map fun entry => match entry.kind, found.shadows.lookup entry.source with
      | .bind, some copy => { entry with source := copy }
      | _, _ => entry
    let shadows := found.shadows.filter fun shadow =>
      (entries.any fun entry => entry.kind ≠ .bind ∧ entry.source = shadow.1)
        && !entries.any fun entry => root.join (.ofBytes entry.name) = shadow.1
    pure (some ⟨root, entries, shadows⟩)

/-- `skills::plan`. -/
def planSkills (fs : Files) (inputs : SandboxInputs) : Except SandboxErr (Option DirView) :=
  let view := match inputs.skillHome with
    | some home => do planView fs home (← fs.listing home)
    | none => if inputs.callable then .error (.skillsNeedRoot inputs.kind) else .ok none
  match view with
  | .error e => if inputs.callable then .error e else .ok none
  | view => view

section Plan
variable (fs : Files) (inputs : SandboxInputs)

def tmpMounts : List Path := [.ofBytes (ascii "/tmp"), .ofBytes (ascii "/var/tmp")]

/-- A value of the environment that is not empty, as a path. -/
def SandboxInputs.envPath (key : String) : Option Path :=
  ((inputs.env key).filter (· ≠ [])).map Path.ofBytes

def rootKeys : List String :=
  ["HOME", "RIMZ_HOME", "XDG_CONFIG_HOME", "XDG_DATA_HOME", "XDG_CACHE_HOME", "XDG_STATE_HOME",
    "XDG_RUNTIME_DIR", "RIMZ_AGENTS_HOME"]

/-- The provider home that is mounted. -/
def SandboxInputs.mountedHome : Option ProviderHome :=
  inputs.providerHome.filter fun home => fs.present home.source

/-- The paths the view has to reach. -/
def required : List Path :=
  inputs.domainPaths ++ rootKeys.filterMap inputs.envPath ++ [inputs.cwd, inputs.projectRoot]
    ++ inputs.worktree.toList ++ inputs.addDirs ++ inputs.defaultHome.toList
    ++ (inputs.mountedHome fs).toList.map ProviderHome.source

/-- The required paths below a temp root. -/
def reach : List Path → Except SandboxErr (List Path)
  | [] => .ok []
  | path :: rest => do
    validatePath path
    let path := path.normalizePathLexical
    if path ∈ tmpMounts then .error (.tmpCollision path)
    else do
      let rest ← reach rest
      pure (if tmpMounts.any path.startsWith ∧ fs.present path then path :: rest else rest)

/-- The binds of the paths that no bound parent reaches. -/
def bindOuter : List Path → List Path → List Mount
  | _, [] => []
  | bound, path :: rest =>
    if bound.any path.startsWith then bindOuter bound rest
    else .bind path path :: bindOuter (bound ++ [path]) rest

def protectedPaths : List Path :=
  let home := (inputs.envPath "HOME").toList.flatMap fun home =>
    [".profile", ".bashrc", ".bash_profile", ".bash_login", ".bash_logout", ".zshenv", ".zprofile", ".zshrc",
      ".zlogin", ".zlogout", ".config/fish", ".gitconfig", ".ssh", ".config/systemd/user"].map fun entry =>
        home.join (.ofBytes (ascii entry))
  let git := inputs.checkout.toList.flatMap fun checkout =>
    let git := (fs.gitAdminDir checkout).getD (checkout.join (.ofBytes (ascii ".git")))
    let git := (fs.commondir git).elim git fun common => (git.join common).normalizePathLexical
    [git.join (.ofBytes (ascii "hooks")), git.join (.ofBytes (ascii "config"))]
  let project := [inputs.checkout.getD inputs.cwd, inputs.projectRoot].flatMap fun root =>
    [".claude", ".codex", ".agents", ".mcp.json"].map fun entry => root.join (.ofBytes (ascii entry))
  pathSet (home ++ git ++ project)

def providerHomes : List Path :=
  ((inputs.providerHome.toList.flatMap fun home => [home.source, home.target])
    ++ inputs.defaultHome.toList).map fun home =>
      (fs.canonicalize home).getD home.normalizePathLexical

/-- The mounts of the protected paths, and the paths that are made read-only last. -/
def protect (root : Option Path) : List Path → Except SandboxErr (List Mount × List Path)
  | [] => .ok ([], [])
  | path :: rest => do
    validatePath path
    let resolved := (fs.canonicalize path).getD path
    let (mounts, overlays) ← protect root rest
    pure (if (providerHomes fs inputs).any fun home => resolved.startsWith home || home.startsWith resolved then
        (mounts, overlays)
      else match root.filter fun root => root.startsWith resolved with
        | some root => (.bind path path :: mounts, path :: root :: overlays)
        | none => (.roBind path path :: mounts, overlays))

/-- The mounts of the skill view. -/
def DirView.mounts (view : DirView) : List Mount :=
  .tmpfs view.root :: (view.entries.map fun entry =>
      let path := view.root.join (.ofBytes entry.name)
      match entry.kind with
      | .bind => Mount.roBind entry.source path
      | .symlink target => .symlink target path)
    ++ view.shadows.map fun shadow => .roBind shadow.2 shadow.1

def planMounts : Except SandboxErr (List Mount) := do
  let view ← planSkills fs inputs
  let home := (inputs.mountedHome fs).toList
  home.forM fun home => do
    validatePath home.source
    validatePath home.target
  validatePath inputs.tmpDir
  let reached ← reach fs (required fs inputs)
  inputs.readOnly.forM validatePath
  let (guarded, overlays) ← protect fs inputs (view.map DirView.root)
    ((protectedPaths fs inputs).filter fs.present)
  inputs.sshConfig.toList.forM fun (copy, _, target) => do
    validatePath copy
    validatePath target
  pure ((home.map fun home => .bind home.source home.target) ++ tmpMounts.map (.bind inputs.tmpDir)
    ++ bindOuter [] (pathSet reached)
    ++ (inputs.readOnly.map (fun path => .roBind path path) ++ guarded ++ view.toList.flatMap DirView.mounts)
    ++ (pathSet overlays).map .remountRo
    ++ inputs.sshConfig.toList.map fun (copy, name, target) => .roBind (copy.join name) target)

end Plan

/-! ### What backs a path -/

/-- What a mount shows: host content that may be written or not, or none. -/
inductive Backing where
  | writable
  | readOnly
  | tmpfs
  deriving DecidableEq

structure Layer where
  location : Path
  backing : Backing

/-- The mount at a path becomes read-only, if the topmost mount there is at that path. -/
def remount (target : Path) : List Layer → List Layer
  | [] => []
  | layer :: rest =>
    if layer.location <+: target then
      (if layer.location = target ∧ layer.backing = .writable then { layer with backing := .readOnly }
        else layer) :: rest
    else layer :: remount target rest

/-- One mount over the layers, newest first. What a symbolic link leads to counts as writable. -/
def mountOver (layers : List Layer) : Mount → List Layer
  | .bind _ target | .symlink _ target => ⟨target.normalizePathLexical, .writable⟩ :: layers
  | .roBind _ target => ⟨target.normalizePathLexical, .readOnly⟩ :: layers
  | .tmpfs target => ⟨target.normalizePathLexical, .tmpfs⟩ :: layers
  | .remountRo target => remount target.normalizePathLexical layers

/-- The newest mount that covers a path. -/
def topmost (layers : List Layer) (path : Path) : Option Layer :=
  layers.find? fun layer => layer.location <+: path

/-- What backs a path of the view, over a root that is writable. -/
def backing (mounts : List Mount) (path : Path) : Backing :=
  ((topmost (mounts.foldl mountOver []) path).map Layer.backing).getD .writable

section Cover
variable {layers : List Layer} {path : Path} {late late' : List Path} {ms : List Mount} {m : Mount}

/-- The topmost mount of a path is not writable, or is one that is made read-only later. -/
def Covered (late : List Path) (path : Path) (layers : List Layer) : Prop :=
  ∃ layer, topmost layers path = some layer ∧ (layer.backing = .writable → layer.location ∈ late)

/-- A mount that shows no writable content but at the paths that are made read-only later. -/
def Mount.Safe (late : List Path) : Mount → Prop
  | .bind _ target => target.normalizePathLexical ∈ late
  | .symlink .. => False
  | _ => True

lemma Mount.Safe.mono (h : m.Safe late) (sub : late ⊆ late') : m.Safe late' := by
  cases m with
  | bind source target => exact sub h
  | symlink target path => exact h.elim
  | _ => trivial

lemma Covered.mono (h : Covered late path layers) (sub : late ⊆ late') :
    Covered late' path layers := by
  obtain ⟨layer, top, writable⟩ := h
  exact ⟨layer, top, fun w => sub (writable w)⟩

lemma Covered.new (layer : Layer) (covers : layer.location <+: path)
    (writable : layer.backing = .writable → layer.location ∈ late) :
    Covered late path (layer :: layers) :=
  ⟨layer, by simp [topmost, covers], writable⟩

lemma Covered.over (h : Covered late path layers) {layer}
    (writable : layer.location <+: path → layer.backing = .writable → layer.location ∈ late) :
    Covered late path (layer :: layers) := by
  by_cases covers : layer.location <+: path
  · exact .new layer covers (writable covers)
  · obtain ⟨old, top, keeps⟩ := h
    exact ⟨old, by simpa [topmost, covers] using top, keeps⟩

/-- A remount finds the topmost mount of a path if it is at that mount's own path. -/
lemma Covered.remount {target} (h : Covered (target :: late) path layers) :
    Covered late path (remount target layers) := by
  obtain ⟨layer, top, writable⟩ := h
  induction layers with
  | nil => cases top
  | cons head rest ih =>
    simp only [topmost, List.find?_cons] at top
    simp only [Sandbox.remount]
    by_cases covers : head.location <+: path
    · simp only [covers, decide_true, Option.some.injEq] at top
      subst top
      split
      · refine .new _ (by split <;> exact covers) ?_
        split
        · exact nofun
        · next kept => exact fun w => (mem_cons.mp (writable w)).resolve_left fun e => kept ⟨e, w⟩
      · next elsewhere =>
        exact .new _ covers fun w => (mem_cons.mp (writable w)).resolve_left fun e => elsewhere (e ▸ prefix_rfl)
    · simp only [covers, decide_false] at top
      split
      · next above =>
        -- The layer below is not at the target, which the head covers.
        refine Covered.over ⟨layer, top, fun w => (mem_cons.mp (writable w)).resolve_left fun e => covers ?_⟩
          fun covers' => absurd ?_ covers
        · have under : layer.location <+: path := by simpa using List.find?_some top
          exact above.trans (e ▸ under)
        · split at covers'
          all_goals exact covers'
      · exact (ih top).over fun covers' => absurd covers' covers

lemma Covered.mount (h : Covered late path layers) (safe : m.Safe late) :
    Covered late path (mountOver layers m) := by
  cases m with
  | bind source target => exact h.over fun _ _ => safe
  | roBind source target | tmpfs target => exact h.over fun _ => nofun
  | symlink target path => exact safe.elim
  | remountRo target => exact (h.mono (List.subset_cons_self ..)).remount

lemma Covered.mounts (h : Covered late path layers) (safe : ∀ m ∈ ms, m.Safe late) :
    Covered late path (ms.foldl mountOver layers) := by
  induction ms generalizing layers with
  | nil => exact h
  | cons m rest ih =>
    exact ih (h.mount (safe _ mem_cons_self)) fun other mem => safe other (mem_cons_of_mem _ mem)

/-- A bind over the path, among mounts that are safe. -/
lemma covered_of_mem (safe : ∀ m ∈ ms, m.Safe late) {target}
    (mem : Mount.bind target target ∈ ms ∨ Mount.roBind target target ∈ ms)
    (covers : target.normalizePathLexical <+: path) :
    Covered late path (ms.foldl mountOver layers) := by
  induction ms generalizing layers with
  | nil => rcases mem with mem | mem <;> cases mem
  | cons m rest ih =>
    have safe' := fun other mem => safe other (mem_cons_of_mem m mem)
    simp only [mem_cons] at mem
    rw [foldl_cons]
    rcases mem with (e | mem) | (e | mem)
    · subst e
      refine Covered.mounts (.new ⟨_, .writable⟩ covers fun _ => ?_) safe'
      exact safe _ mem_cons_self
    · exact ih safe' (.inl mem)
    · subst e
      exact Covered.mounts (.new ⟨_, .readOnly⟩ covers fun e => by cases e) safe'
    · exact ih safe' (.inr mem)

/-- Remounting every path that is to become read-only leaves none to be made so. -/
lemma Covered.remounts {targets : List Path}
    (h : Covered (targets.map .normalizePathLexical) path layers) :
    Covered [] path ((targets.map .remountRo).foldl mountOver layers) := by
  induction targets generalizing layers with
  | nil => exact h
  | cons target rest ih => exact ih h.remount

lemma mem_pathSet {paths} : path ∈ pathSet paths ↔ path ∈ paths := by
  simp [pathSet, List.mem_dedup]

lemma backing_of_bound {before after : List Mount} {overlays}
    (safe : ∀ m ∈ ms, m.Safe (overlays.map .normalizePathLexical)) (last : ∀ m ∈ after, m.Safe [])
    {target} (mem : Mount.bind target target ∈ ms ∨ Mount.roBind target target ∈ ms)
    (covers : target.normalizePathLexical <+: path) :
    backing (before ++ ms ++ (pathSet overlays).map .remountRo ++ after) path ≠ .writable := by
  have late : overlays.map Path.normalizePathLexical ⊆ (pathSet overlays).map Path.normalizePathLexical :=
    List.map_subset _ fun _ h => mem_pathSet.mpr h
  have bound : Covered _ path (ms.foldl mountOver (before.foldl mountOver [])) :=
    covered_of_mem safe mem covers
  obtain ⟨layer, top, writable⟩ := (bound.mono late).remounts.mounts last
  rw [backing, foldl_append, foldl_append, foldl_append, top]
  exact fun w => absurd (writable w) not_mem_nil

end Cover

/-! ### The plan -/

section Plan
variable {fs : Files} {inputs : SandboxInputs}

lemma ok_of_bind {ε α β x} {f : α → Except ε β} {b} (h : x >>= f = .ok b) :
    ∃ a, x = .ok a ∧ f a = .ok b := by
  cases x with
  | error e => cases h
  | ok a => exact ⟨a, rfl, h⟩

lemma canonicalize_of_valid {path} (valid : validatePath path = .ok ())
    (present : fs.present path = true) :
    (fs.canonicalize path).getD path = path.normalizePathLexical := by
  have absolute : path.isAbsolute = true := by
    simp only [validatePath] at valid
    split at valid
    · next ok => exact ok.1
    · cases valid
  simp [Files.canonicalize, present, Path.join, absolute]

/-- A path apart from every provider home. -/
def Apart (fs : Files) (inputs : SandboxInputs) (path : Path) : Prop :=
  ∀ home ∈ providerHomes fs inputs, path.startsWith home = false ∧ home.startsWith path = false

/-- Every protected path apart from the provider homes is bound, read-only at once or later. -/
lemma protect_spec {root paths mounts overlays}
    (done : protect fs inputs root paths = .ok (mounts, overlays)) :
    (∀ mount ∈ mounts, mount.Safe (overlays.map .normalizePathLexical))
      ∧ ∀ path ∈ paths, fs.present path = true → Apart fs inputs path.normalizePathLexical →
        Mount.bind path path ∈ mounts ∨ Mount.roBind path path ∈ mounts := by
  induction paths generalizing mounts overlays with
  | nil =>
    cases done
    exact ⟨nofun, nofun⟩
  | cons path rest ih =>
    obtain ⟨⟨⟩, valid, done⟩ := ok_of_bind done
    obtain ⟨⟨mounts', overlays'⟩, below, done⟩ := ok_of_bind done
    obtain ⟨safe, bound⟩ := ih below
    have done := Except.ok.inj done
    split at done
    · next home =>
      cases done
      refine ⟨safe, fun other mem present apart => ?_⟩
      rcases mem_cons.mp mem with rfl | mem
      · obtain ⟨home, hm, near⟩ := List.any_eq_true.mp home
        rw [canonicalize_of_valid valid present] at near
        simp [apart home hm] at near
      · exact bound other mem present apart
    split at done
    · cases done
      refine ⟨fun mount mem => ?_, fun other mem present apart => ?_⟩
      · rcases mem_cons.mp mem with rfl | mem
        · exact mem_cons_self
        · exact (safe mount mem).mono fun _ h => mem_cons_of_mem _ (mem_cons_of_mem _ h)
      · rcases mem_cons.mp mem with rfl | mem
        · exact .inl mem_cons_self
        · exact (bound other mem present apart).imp (mem_cons_of_mem _) (mem_cons_of_mem _)
    · cases done
      refine ⟨fun mount mem => ?_, fun other mem present apart => ?_⟩
      · rcases mem_cons.mp mem with rfl | mem
        · trivial
        · exact safe mount mem
      · rcases mem_cons.mp mem with rfl | mem
        · exact .inr mem_cons_self
        · exact (bound other mem present apart).imp (mem_cons_of_mem _) (mem_cons_of_mem _)

/-- No entry of a skill directory is a symbolic link. -/
def Files.Plain (fs : Files) : Prop :=
  ∀ home found, fs.listing home = .ok found → ∀ entry ∈ found.entries, entry.kind = .bind

lemma planView_plain {home found view} (plain : ∀ entry ∈ found.entries, entry.kind = .bind)
    (done : planView fs home found = .ok (some view)) :
    ∀ entry ∈ view.entries, entry.kind = .bind := by
  simp only [planView] at done
  split at done
  · cases done
  obtain ⟨-, -, done⟩ := ok_of_bind done
  obtain ⟨-, -, done⟩ := ok_of_bind done
  cases done
  intro entry mem
  obtain ⟨old, found, rfl⟩ := mem_map.mp mem
  have kind := plain old (mem_filter.mp found).1
  split <;> exact kind

lemma planSkills_plain (plain : fs.Plain) {view} (done : planSkills fs inputs = .ok (some view)) :
    ∀ entry ∈ view.entries, entry.kind = .bind := by
  simp only [planSkills] at done
  split at done
  · split at done <;> cases done
  split at done
  · next home _ =>
    obtain ⟨found, listed, viewed⟩ := ok_of_bind done
    exact planView_plain (plain home found listed) viewed
  · split at done <;> cases done

lemma DirView.mounts_safe {view : DirView} (plain : ∀ entry ∈ view.entries, entry.kind = .bind)
    {late} : ∀ mount ∈ view.mounts, mount.Safe late := by
  intro mount mem
  simp only [DirView.mounts, cons_append, mem_cons, mem_append, mem_map] at mem
  rcases mem with rfl | ⟨entry, mem, rfl⟩ | ⟨shadow, -, rfl⟩
  · trivial
  · rw [plain entry mem]
    trivial
  · trivial

/-- Whatever a plan mounts after the writable binds, a path under a requested read-only path, or
under a protected path apart from the provider homes, is not backed by writable host content. -/
theorem plan_keeps_read_only (plain : fs.Plain) {mounts} (done : planMounts fs inputs = .ok mounts)
    {path} :
    (∀ asked ∈ inputs.readOnly, asked.normalizePathLexical <+: path → backing mounts path ≠ .writable)
      ∧ ∀ kept ∈ protectedPaths fs inputs, fs.present kept = true → Apart fs inputs kept.normalizePathLexical →
        kept.normalizePathLexical <+: path → backing mounts path ≠ .writable := by
  obtain ⟨view, viewed, done⟩ := ok_of_bind done
  obtain ⟨-, -, done⟩ := ok_of_bind done
  obtain ⟨-, -, done⟩ := ok_of_bind done
  obtain ⟨reached, -, done⟩ := ok_of_bind done
  obtain ⟨-, -, done⟩ := ok_of_bind done
  obtain ⟨⟨guarded, overlays⟩, protects, done⟩ := ok_of_bind done
  obtain ⟨-, -, done⟩ := ok_of_bind done
  cases done
  obtain ⟨safe, bound⟩ := protect_spec protects
  have all : ∀ mount ∈ inputs.readOnly.map (fun path => Mount.roBind path path) ++ guarded
      ++ view.toList.flatMap DirView.mounts, mount.Safe (overlays.map .normalizePathLexical) := by
    intro mount mem
    rcases mem_append.mp mem with mem | mem
    · rcases mem_append.mp mem with mem | mem
      · obtain ⟨_, -, rfl⟩ := mem_map.mp mem
        trivial
      · exact safe mount mem
    · obtain ⟨view', some, mem⟩ := mem_flatMap.mp mem
      rw [Option.mem_toList] at some
      exact DirView.mounts_safe (planSkills_plain plain (viewed.trans (by rw [some]))) mount mem
  have last : ∀ mount ∈ inputs.sshConfig.toList.map fun ssh =>
      Mount.roBind (ssh.1.join ssh.2.1) ssh.2.2, mount.Safe [] := by
    intro mount mem
    obtain ⟨_, -, rfl⟩ := mem_map.mp mem
    trivial
  constructor
  · intro asked mem covers
    refine backing_of_bound all last (.inr ?_) covers
    exact mem_append_left _ (mem_append_left _ (mem_map.mpr ⟨asked, mem, rfl⟩))
  · intro kept mem present apart covers
    refine backing_of_bound all last
      ((bound kept (mem_filter.mpr ⟨mem, present⟩) present apart).imp ?_ ?_) covers
    all_goals exact fun mem => mem_append_left _ (mem_append_right _ mem)

end Plan

/-- A project whose `.agents` holds the skill directory. -/
def projectFiles : Files where
  cwd := .ofBytes (ascii "/")
  present path := path = .ofBytes (ascii "/p/.agents")
  gitAdminDir _ := none
  commondir _ := none
  listing _ := .ok ⟨true, [⟨ascii "review", .ofBytes (ascii "/s/review"), .bind⟩], [], []⟩

def projectInputs : SandboxInputs where
  env _ := none
  domainPaths := []
  cwd := .ofBytes (ascii "/p")
  projectRoot := .ofBytes (ascii "/p")
  worktree := none
  checkout := none
  addDirs := []
  readOnly := [.ofBytes (ascii "/r")]
  tmpDir := .ofBytes (ascii "/t")
  providerHome := none
  defaultHome := none
  kind := "claude"
  skillHome := some (.ofBytes (ascii "/p/.agents/skills"))
  callable := true
  sshConfig := none

/-- What a project keeps in `.agents` stays read-only around the mounted skills. -/
theorem plan_keeps_read_only_agents : ∃ mounts, planMounts projectFiles projectInputs = .ok mounts
    ∧ backing mounts (.ofBytes (ascii "/p/.agents/x")) ≠ .writable := by
  have plain : projectFiles.Plain := by
    intro home found listed entry mem
    cases listed
    cases mem_singleton.mp mem
    rfl
  have planned : (planMounts projectFiles projectInputs).toOption.isSome = true := by decide +kernel
  cases done : planMounts projectFiles projectInputs with
  | error e =>
    rw [done] at planned
    cases planned
  | ok mounts =>
    refine ⟨mounts, rfl, (plan_keeps_read_only plain done).2 (.ofBytes (ascii "/p/.agents")) ?_ ?_ ?_ ?_⟩
    · decide +kernel
    · decide +kernel
    · exact nofun
    · decide +kernel

end Rimz.Sandbox
