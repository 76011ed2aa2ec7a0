import Mathlib.Data.Set.Function
import Mathlib.Data.List.Infix
import Conductress.Base.Json
import Conductress.Lib.Prog

/-!
# The build cache of a host

`BinaryManager.ensure_binary_cached` as a program over the commands it sends to
the host. A file copy is one command for each byte, so that a death between two
commands may leave any prefix; what `_is_binary_cached` reports is kept with the
entry it reported on.

The binary is the marker of a complete entry and is written last, but by a plain
copy: a death inside that copy leaves a marker that is not a binary
(`torn_copy_hits`). Every other death is harmless, wherever it falls
(`hits_right`).
-/

namespace Conductress.BinaryManager

open Lib

abbrev Bytes := List UInt8

/-! ## What is built -/

/-- The files a build leaves in the source tree. -/
structure Build where
  valkeyServer : Option Bytes
  redisServer  : Option Bytes
  luaModule    : Option Bytes

namespace Build

def empty : Build := ⟨none, none, none⟩

/-- The binary that is cached: `valkey-server`, or the fallback. -/
def binary (b : Build) : Option Bytes := b.valkeyServer.or b.redisServer

end Build

/-- What the manager takes from the tools of the host and from the configuration:
what a commit builds with some arguments, the output of `readelf -d`, the first
16 digits of an MD5 and the SHA-1 of a file. -/
structure Toolchain where
  build           : (source commit makeArgs : String) → Build
  readelf         : Bytes → List Char
  md5Prefix       : String → String
  sha1sum         : Bytes → String
  repoNames       : List String
  defaultMakeArgs : String

/-! ## The run path of a binary -/

/-- `line[line.find("[") + 1 : line.rfind("]")]`, if there is such a part. -/
def searchList (line : List Char) : Option (List Char) := do
  let start ← line.findIdx? (· = '[')
  let fromEnd ← line.reverse.findIdx? (· = ']')
  let stop := line.length - 1 - fromEnd
  if stop ≤ start then none else some ((line.take stop).drop (start + 1))

/-- `entry.rstrip("/").endswith("modules/lua")`. -/
def isModuleDir (entry : List Char) : Bool :=
  decide ("modules/lua".toList <:+ (entry.reverse.dropWhile (· = '/')).reverse)

/-- `_rpath_names_lua_module`. -/
def rpathNamesLuaModule (dump : List Char) : Bool :=
  (dump.splitOn '\n').any fun line =>
    decide ("(RPATH)".toList <:+: line ∨ "(RUNPATH)".toList <:+: line) &&
      match searchList line with
      | none => false
      | some entries => (entries.splitOn ':').any isModuleDir

namespace Toolchain

/-- `_binary_needs_lua_module`; the shell command ends in `|| true` and does not
fail. -/
def namesModule (tools : Toolchain) (binary : Bytes) : Bool :=
  rpathNamesLuaModule (tools.readelf binary)

end Toolchain

/-! ## The host -/

/-- `remote_build_cache / source / hash / make_args_hash`. -/
structure EntryPath where
  source   : String
  hash     : String
  argsHash : String
  deriving DecidableEq

inductive CacheFile where
  | binary
  | luaModule
  deriving DecidableEq

structure Entry where
  binary    : Option Bytes
  luaModule : Option Bytes

namespace Entry

def get (e : Entry) : CacheFile → Option Bytes
  | .binary => e.binary
  | .luaModule => e.luaModule

def set (e : Entry) (content : Option Bytes) : CacheFile → Entry
  | .binary => { e with binary := content }
  | .luaModule => { e with luaModule := content }

end Entry

/-- `_is_binary_cached` returned `True` for a build, and this is what it was
asked about. -/
structure Hit where
  source   : String
  commit   : String
  makeArgs : String
  entry    : Entry

structure Host where
  /-- The commit a source tree is at. -/
  head  : String → String
  tree  : String → Build
  cache : EntryPath → Entry
  hits  : List Hit

namespace Host

def setFile (s : Host) (path : EntryPath) (file : CacheFile) (content : Option Bytes) : Host :=
  { s with cache := Function.update s.cache path ((s.cache path).set content file) }

end Host

/-- The arguments of `ensure_binary_cached`. -/
structure Arguments where
  source    : Option String
  specifier : Option String
  makeArgs  : Option String

inductive TreeFile where
  | valkeyServer
  | redisServer
  | luaModule

namespace Build

def get (b : Build) : TreeFile → Option Bytes
  | .valkeyServer => b.valkeyServer
  | .redisServer => b.redisServer
  | .luaModule => b.luaModule

end Build

/-! ## Commands -/

inductive Command : Type → Type
  | nextCall : Command Arguments
  /-- `_normalize_specifier` and `git reset --hard`: whether there is such a commit. -/
  | reset (source : String) (specifier : Option String) : Command Bool
  /-- `git rev-parse HEAD`. -/
  | revParse (source : String) : Command String
  /-- `check_file_exists`. -/
  | fileExists (path : EntryPath) (file : CacheFile) : Command Bool
  | readelf (path : EntryPath) : Command Bool
  /-- `rm -rf`, of an entry that holds the binary alone. -/
  | removeEntry (path : EntryPath) : Command Unit
  /-- The answer of `_is_binary_cached`. -/
  | report (source commit makeArgs : String) (path : EntryPath) : Command Unit
  /-- `rm -f src/valkey-server src/redis-server; make distclean`. -/
  | clean (source : String) : Command Unit
  /-- `make -j`: whether it succeeds. -/
  | make (source makeArgs : String) : Command Bool
  | treeFile (source : String) (file : TreeFile) : Command (Option Bytes)
  /-- A copy opens its destination, and appends to it. -/
  | create (path : EntryPath) (file : CacheFile) : Command Unit
  | append (path : EntryPath) (file : CacheFile) (byte : UInt8) : Command Unit
  /-- `rm -f {module_src}`. -/
  | removeModule (source : String) : Command Unit
  /-- The local file of an upload. -/
  | readLocal (localPath : Option String) : Command (Option Bytes)

/-- What the state of the host does not decide: the next call, the commit a
specifier resolves to, whether a build succeeds and what a failed one leaves,
and the content of a local file. -/
structure Choice where
  arguments : Arguments
  commit    : Option String
  succeeds  : Bool
  debris    : Build
  upload    : Option Bytes

def exec (tools : Toolchain) : {β : Type} → Command β → Choice → Host → β × Host
  | _, .nextCall, x, s => (x.arguments, s)
  | _, .reset source _, x, s =>
    match x.commit with
    | some commit => (true, { s with head := Function.update s.head source commit })
    | none => (false, s)
  | _, .revParse source, _, s => (s.head source, s)
  | _, .fileExists path file, _, s => (((s.cache path).get file).isSome, s)
  | _, .readelf path, _, s => ((s.cache path).binary.any tools.namesModule, s)
  | _, .removeEntry path, _, s => ((), { s with cache := Function.update s.cache path ⟨none, none⟩ })
  | _, .report source commit makeArgs path, _, s =>
    ((), { s with hits := s.hits ++ [⟨source, commit, makeArgs, s.cache path⟩] })
  | _, .clean source, _, s => ((), { s with tree := Function.update s.tree source .empty })
  | _, .make source makeArgs, x, s =>
    (x.succeeds, { s with
      tree := Function.update s.tree source
        (if x.succeeds then tools.build source (s.head source) makeArgs else x.debris) })
  | _, .treeFile source file, _, s => ((s.tree source).get file, s)
  | _, .create path file, _, s => ((), s.setFile path file (some []))
  | _, .append path file byte, _, s =>
    ((), s.setFile path file (((s.cache path).get file).map (· ++ [byte])))
  | _, .removeModule source, _, s =>
    ((), { s with tree := Function.update s.tree source { s.tree source with luaModule := none } })
  | _, .readLocal _, x, s => (x.upload, s)

/-- Nobody else writes to the cache. -/
def effects (tools : Toolchain) : Effects Command Host Choice Empty where
  exec := exec tools
  interfere e := nomatch e

/-! ## The manager -/

abbrev Act (α : Type) := Prog Command PyError α

/-- The fields of a `BinaryManager` that a call leaves to the next one. -/
structure Manager where
  source    : Option String
  specifier : Option String
  makeArgs  : String

def manuallyUploaded : String := "manually_uploaded"

/-- `if value: field = value`. -/
def keep (field value : Option String) : Option String :=
  match value with
  | some text => if text = "" then field else some text
  | none => field

/-- The first lines of `ensure_binary_cached`. -/
def Manager.update (m : Manager) (a : Arguments) : Manager where
  source    := keep m.source a.source
  specifier := keep m.specifier a.specifier
  makeArgs  := a.makeArgs.getD m.makeArgs

variable (tools : Toolchain)

/-- `get_cached_build_path`. -/
def cachedBuildPath (source hash makeArgs : String) : EntryPath :=
  ⟨source, hash, tools.md5Prefix makeArgs⟩

/-- `_is_binary_cached`. -/
def isBinaryCached (source hash makeArgs : String) : Act Bool := do
  let path := cachedBuildPath tools source hash makeArgs
  match ← .run (.fileExists path .binary) with
  | false => .pure false
  | true =>
    match ← .run (.readelf path) with
    | false => do
      .run (.report source hash makeArgs path)
      .pure true
    | true =>
      match ← .run (.fileExists path .luaModule) with
      | true => do
        .run (.report source hash makeArgs path)
        .pure true
      | false => do
        .run (.removeEntry path)
        .pure false

/-- The bytes of a copy, one after the other. -/
def copyBytes (path : EntryPath) (file : CacheFile) : Bytes → Act Unit
  | [] => .pure ()
  | byte :: rest => do
    .run (.append path file byte)
    copyBytes path file rest

/-- `cp`, and `put_remote_file`. -/
def copy (path : EntryPath) (file : CacheFile) (content : Bytes) : Act Unit := do
  .run (.create path file)
  copyBytes path file content

/-- `cp {module_src} {cached_build_path}/libvalkeylua.so && rm -f {module_src}`. -/
def cacheModule (source : String) (path : EntryPath) : Act Unit := do
  match ← .run (.treeFile source .luaModule) with
  | some content => do
    copy path .luaModule content
    .run (.removeModule source)
  | none => .pure ()

/-- `cp {build_binary} {cached_binary_path}`. -/
def cacheBinary (source : String) (path : EntryPath) : Act Unit := do
  match ← .run (.treeFile source .valkeyServer) with
  | some content => copy path .binary content
  | none =>
    match ← .run (.treeFile source .redisServer) with
    | some content => copy path .binary content
    | none => .raise (.runtimeError "cp: cannot stat")

/-- The body of `_ensure_build_cached` on a miss. -/
def buildEntry (source makeArgs : String) (path : EntryPath) : Act Unit := do
  .run (.clean source)
  match ← .run (.make source makeArgs) with
  | false => .raise (.runtimeError "Build failed")
  | true => do
    cacheModule source path
    cacheBinary source path

/-- `_ensure_build_cached`. -/
def ensureBuildCached (source : String) (specifier : Option String) (makeArgs : String) :
    Act Unit := do
  match ← .run (.reset source specifier) with
  | false => .raise (.valueError "is an invalid specifier")
  | true => do
    let hash ← .run (.revParse source)
    match ← isBinaryCached tools source hash makeArgs with
    | true => .pure ()
    | false => buildEntry source makeArgs (cachedBuildPath tools source hash makeArgs)

/-- `_ensure_binary_uploaded`. The file is not edited while it is uploaded. -/
def ensureBinaryUploaded (localPath : Option String) (makeArgs : String) : Act Unit := do
  match ← .run (.readLocal localPath) with
  | none => .raise (.runtimeError "Failed to run sha1sum on local binary")
  | some content =>
    match ← isBinaryCached tools manuallyUploaded (tools.sha1sum content) makeArgs with
    | true => .pure ()
    | false =>
      copy (cachedBuildPath tools manuallyUploaded (tools.sha1sum content) makeArgs) .binary content

/-- `ensure_binary_cached`. -/
def ensureBinaryCached (m : Manager) : Act Unit :=
  match m.source with
  | none => .raise (.valueError "Unknown source: None")
  | some source =>
    if source = manuallyUploaded then ensureBinaryUploaded tools m.specifier m.makeArgs
    else if source ∉ tools.repoNames then .raise (.valueError ("Unknown source: " ++ source))
    else ensureBuildCached tools source m.specifier m.makeArgs

/-- A process that makes one call after the other, whatever it is asked for. -/
def machine : Machine Command PyError Manager where
  boot   := .pure ⟨none, none, tools.defaultMakeArgs⟩
  body m := do
    let a ← .run .nextCall
    ensureBinaryCached tools (m.update a)
    .pure (m.update a)

/-! ## Right entries -/

variable (known : Set String)

/-- The complete binary of an entry. `known` are the make arguments in use, told
apart by their hashes. -/
def BinaryOf (path : EntryPath) (content : Bytes) : Prop :=
  if path.source = manuallyUploaded then tools.sha1sum content = path.hash
  else ∃ makeArgs ∈ known, tools.md5Prefix makeArgs = path.argsHash ∧
    (tools.build path.source path.hash makeArgs).binary = some content

/-- The complete module of an entry. -/
def ModuleOf (path : EntryPath) (content : Bytes) : Prop :=
  path.source ≠ manuallyUploaded ∧
    ∃ makeArgs ∈ known, tools.md5Prefix makeArgs = path.argsHash ∧
      (tools.build path.source path.hash makeArgs).luaModule = some content

/-- The claim of a hit: the file is the complete binary of what was asked for
and, if it names the module in its run path, the complete module of the same
build lies beside it. -/
def Hit.Right (h : Hit) : Prop :=
  ∃ content, h.entry.binary = some content ∧
    (if h.source = manuallyUploaded then tools.sha1sum content = h.commit
      else (tools.build h.source h.commit h.makeArgs).binary = some content) ∧
    (tools.namesModule content = true → ∃ luaModule, h.entry.luaModule = some luaModule ∧
      (tools.build h.source h.commit h.makeArgs).luaModule = some luaModule)

/-- The entry is that of a build with a module. -/
def HasModule (path : EntryPath) : Prop :=
  path.source ≠ manuallyUploaded ∧
    ∃ makeArgs ∈ known, tools.md5Prefix makeArgs = path.argsHash ∧
      (tools.build path.source path.hash makeArgs).luaModule ≠ none

/-- What holds at every moment: beside a binary, complete or not, lies the
complete module or none. -/
structure Inv (s : Host) : Prop where
  beside : ∀ path, (s.cache path).binary ≠ none →
    ∀ content, (s.cache path).luaModule = some content → ModuleOf tools known path content
  grown  : ∀ path, (s.cache path).luaModule ≠ none → HasModule tools known path
  hits   : ∀ h ∈ s.hits, h.Right tools

/-- No copy of a binary is under way: what is in the cache is complete. -/
def Calm (s : Host) : Prop :=
  ∀ path content, (s.cache path).binary = some content → BinaryOf tools known path content

/-- What the manager promises at its commands. -/
def Guard : {β : Type} → Command β → Host → Prop
  | _, .report source commit makeArgs path, s =>
    Hit.Right tools ⟨source, commit, makeArgs, s.cache path⟩
  | _, .create path .binary, s | _, .append path .binary _, s =>
    ∀ content, (s.cache path).luaModule = some content → ModuleOf tools known path content
  | _, .create path .luaModule, s | _, .append path .luaModule _, s =>
    (s.cache path).binary = none ∧ HasModule tools known path
  | _, _, _ => True

/-- The next command is one of a copy of a binary that has begun. -/
def Midway : {β : Type} → Command β → Prop
  | _, .append _ .binary _ => True
  | _, _ => False

/-- Calls use known make arguments. -/
def ChoiceOk : {β : Type} → Command β → Choice → Host → Prop
  | _, .nextCall, x, _ => ∀ makeArgs, x.arguments.makeArgs = some makeArgs → makeArgs ∈ known
  | _, _, _, _ => True

variable {tools known} {s : Host}

/-- A write to the binary of an entry. -/
theorem Inv.setBinary (h : Inv tools known s) {path : EntryPath} {content : Option Bytes}
    (hmodule : ∀ luaModule, (s.cache path).luaModule = some luaModule →
      ModuleOf tools known path luaModule) : Inv tools known (s.setFile path .binary content) := by
  refine ⟨fun path' => ?_, fun path' => ?_, h.hits⟩ <;> by_cases hpath : path' = path
  · subst hpath
    simp only [Host.setFile, Function.update_self]
    exact fun _ => hmodule
  · simp only [Host.setFile, Function.update_of_ne hpath]
    exact h.beside path'
  · subst hpath
    simp only [Host.setFile, Function.update_self]
    exact h.grown path'
  · simp only [Host.setFile, Function.update_of_ne hpath]
    exact h.grown path'

/-- A write to the module of an entry without a binary. -/
theorem Inv.setModule (h : Inv tools known s) {path : EntryPath} {content : Option Bytes}
    (hbinary : (s.cache path).binary = none) (hmodule : HasModule tools known path) :
    Inv tools known (s.setFile path .luaModule content) := by
  refine ⟨fun path' => ?_, fun path' => ?_, h.hits⟩ <;> by_cases hpath : path' = path
  · subst hpath
    simp only [Host.setFile, Function.update_self]
    exact fun hsome => absurd hbinary hsome
  · simp only [Host.setFile, Function.update_of_ne hpath]
    exact h.beside path'
  · subst hpath
    exact fun _ => hmodule
  · simp only [Host.setFile, Function.update_of_ne hpath]
    exact h.grown path'

theorem exec_ok {β : Type} {c : Command β} {x : Choice} (h : Inv tools known s)
    (hguard : Guard tools known c s) : Inv tools known (exec tools c x s).2 := by
  rcases c with _ | ⟨source, specifier⟩ | _ | _ | _ | path | ⟨source, commit, makeArgs, path⟩ |
    source | ⟨source, makeArgs⟩ | _ | ⟨path, file⟩ | ⟨path, file, byte⟩ | source | _
  case reset =>
    simp only [exec]
    split <;> exact ⟨h.beside, h.grown, h.hits⟩
  case removeEntry =>
    refine ⟨fun path' => ?_, fun path' => ?_, h.hits⟩ <;> by_cases hpath : path' = path
    · subst hpath
      simp only [exec, Function.update_self]
      exact fun hsome => absurd rfl hsome
    · simp only [exec, Function.update_of_ne hpath]
      exact h.beside path'
    · subst hpath
      simp only [exec, Function.update_self]
      exact fun hsome => absurd rfl hsome
    · simp only [exec, Function.update_of_ne hpath]
      exact h.grown path'
  case report =>
    refine ⟨h.beside, h.grown, fun hit hmem => ?_⟩
    rcases List.mem_append.mp hmem with hmem | hmem
    · exact h.hits hit hmem
    · rw [List.mem_singleton.mp hmem]
      exact hguard
  case create =>
    rcases file with _ | _
    · exact h.setBinary hguard
    · exact h.setModule hguard.1 hguard.2
  case append =>
    rcases file with _ | _
    · exact h.setBinary hguard
    · exact h.setModule hguard.1 hguard.2
  all_goals exact ⟨h.beside, h.grown, h.hits⟩

/-- The manager alone writes to the cache. -/
def contract (tools : Toolchain) (known : Set String) : Discipline (effects tools) where
  Inv := Inv tools known
  Rely s t := s = t
  envOk e _ := nomatch e
  choiceOk := ChoiceOk known
  guard c s := (Midway c ∨ Calm tools known s) ∧ Guard tools known c s
  rely_refl _ := rfl
  rely_trans := Eq.trans
  interfere_ok {e} := nomatch e
  exec_ok h hguard _ := exec_ok h hguard.2

variable {path : EntryPath} {file : CacheFile} {content : Bytes} {α : Type}
  {Q : α → Host → Prop} {E : PyError → Host → Prop}

/-- One command, then the rest. -/
theorem call_then {β : Type} {c : Command β} {f : β → Act α} (hcalm : Midway c ∨ Calm tools known s)
    (h : Inv tools known s → Guard tools known c s ∧ ∀ x, ChoiceOk known c x s →
      Safe (contract tools known) (f (exec tools c x s).1) Q E (exec tools c x s).2) :
    Safe (contract tools known) (Prog.run c >>= f) Q E s := by
  refine Safe.seq ?_
  rintro _ rfl hI
  exact ⟨⟨hcalm, (h hI).1⟩, fun x hx _ => (h hI).2 x hx⟩

theorem pure_safe {a : α} (h : Q a s) : Safe (contract tools known) (.pure a) Q E s := by
  rintro _ rfl _
  exact h

theorem raise_safe {e : PyError} (h : E e s) :
    Safe (contract tools known) (.raise e : Act α) Q E s := by
  rintro _ rfl _
  exact h

/-! ## Copies -/

theorem setFile_get (s : Host) (path : EntryPath) (file : CacheFile) (content : Option Bytes) :
    ((s.setFile path file content).cache path).get file = content := by
  rcases file with _ | _ <;> simp [Host.setFile, Entry.get, Entry.set]

theorem setFile_setFile (s : Host) (path : EntryPath) (file : CacheFile)
    (before content : Option Bytes) :
    (s.setFile path file before).setFile path file content = s.setFile path file content := by
  rcases file with _ | _ <;> simp [Host.setFile, Entry.set]

theorem setFile_self {content : Option Bytes} (h : (s.cache path).get file = content) :
    s.setFile path file content = s := by
  subst h
  rcases file with _ | _ <;> simp [Host.setFile, Entry.set, Entry.get]

/-- Writing to a file keeps what allows it to be written to. -/
theorem guard_setFile {content : Option Bytes} (h : Guard tools known (.create path file) s) :
    Guard tools known (.create path file) (s.setFile path file content) := by
  rcases file with _ | _
  · simpa [Guard, Host.setFile, Entry.set] using h
  · simpa [Guard, Host.setFile, Entry.set] using h

theorem guard_append {byte : UInt8} (h : Guard tools known (.create path file) s) :
    Guard tools known (.append path file byte) s := by
  rcases file with _ | _ <;> exact h

theorem calm_setModule (h : Calm tools known s) (content : Option Bytes) :
    Calm tools known (s.setFile path .luaModule content) := by
  intro path' content' hcontent
  by_cases hpath : path' = path
  · subst hpath
    simp only [Host.setFile, Function.update_self] at hcontent
    exact h path' content' hcontent
  · simp only [Host.setFile, Function.update_of_ne hpath] at hcontent
    exact h path' content' hcontent

/-- One byte after the other. -/
theorem copyBytes_safe {written : Bytes} {Q : Unit → Host → Prop}
    (hcalm : file = .luaModule → Calm tools known s)
    (hguard : Guard tools known (.create path file) s)
    (hfile : (s.cache path).get file = some written)
    (hQ : Q () (s.setFile path file (some (written ++ content)))) :
    Safe (contract tools known) (copyBytes path file content) Q E s := by
  induction content generalizing s written with
  | nil =>
    rw [List.append_nil, setFile_self hfile] at hQ
    exact pure_safe hQ
  | cons byte rest ih =>
    have hmidway : Midway (.append path file byte) ∨ Calm tools known s := by
      rcases file with _ | _
      · exact .inl trivial
      · exact .inr (hcalm rfl)
    refine call_then hmidway fun _ => ⟨guard_append hguard, fun x _ => ?_⟩
    have hstate : (exec tools (.append path file byte) x s).2 =
        s.setFile path file (some (written ++ [byte])) := by
      simp only [exec, hfile, Option.map_some]
    rw [hstate]
    refine ih (fun hmodule => ?_) (guard_setFile hguard) (setFile_get s path file _) ?_
    · subst hmodule
      exact calm_setModule (hcalm rfl) _
    rw [setFile_setFile, List.append_assoc]
    exact hQ

theorem copy_safe {Q : Unit → Host → Prop} (hcalm : Calm tools known s)
    (hguard : Inv tools known s → Guard tools known (.create path file) s)
    (hQ : Q () (s.setFile path file (some content))) :
    Safe (contract tools known) (copy path file content) Q E s := by
  refine call_then (.inr hcalm) fun hI => ⟨hguard hI, fun x _ => ?_⟩
  refine copyBytes_safe (fun hmodule => ?_) (guard_setFile (hguard hI)) (setFile_get s path file _) ?_
  · subst hmodule
    exact calm_setModule hcalm _
  show Q () ((s.setFile path file (some [])).setFile path file (some content))
  rw [setFile_setFile]
  exact hQ

/-! ## A call -/

/-- What a call needs of the make arguments in use. -/
structure Known (tools : Toolchain) (known : Set String) : Prop where
  default : tools.defaultMakeArgs ∈ known
  apart   : Set.InjOn tools.md5Prefix known

/-- A host where every cached binary is complete reports right hits. -/
theorem right_of_calm (hknown : Known tools known) (hI : Inv tools known s)
    (hcalm : Calm tools known s) {source hash makeArgs : String} (hmem : makeArgs ∈ known)
    {content : Bytes} (hpath : path = cachedBuildPath tools source hash makeArgs)
    (hbinary : (s.cache path).binary = some content)
    (hbeside : tools.namesModule content = true → (s.cache path).luaModule ≠ none) :
    Hit.Right tools ⟨source, hash, makeArgs, s.cache path⟩ := by
  subst hpath
  -- the arguments the entry was built with are those it is asked for with
  have hsame : ∀ {P : String → Prop}, (∃ a ∈ known, tools.md5Prefix a = tools.md5Prefix makeArgs ∧ P a) →
      P makeArgs := by
    rintro P ⟨a, ha, hhash, hP⟩
    rwa [hknown.apart ha hmem hhash] at hP
  refine ⟨content, hbinary, ?_, fun hnames => ?_⟩
  · have hof := hcalm _ _ hbinary
    unfold BinaryOf cachedBuildPath at hof
    by_cases hmanual : source = manuallyUploaded
    · rw [if_pos hmanual] at hof ⊢
      exact hof
    · rw [if_neg hmanual] at hof ⊢
      exact hsame hof
  · obtain ⟨luaModule, hmodule⟩ := Option.ne_none_iff_exists'.mp (hbeside hnames)
    have hof := hI.beside _ (by rw [hbinary]; exact Option.some_ne_none _) _ hmodule
    exact ⟨luaModule, hmodule, hsame hof.2⟩

/-- `_is_binary_cached` keeps the cache on a hit, and leaves no binary on a
miss. -/
theorem isBinaryCached_safe (hknown : Known tools known) (hcalm : Calm tools known s)
    {source hash makeArgs : String} (hmem : makeArgs ∈ known)
    (hpath : path = cachedBuildPath tools source hash makeArgs) {Q : Bool → Host → Prop}
    (htrue : ∀ t, Calm tools known t → Q true t)
    (hfalse : ∀ t, Calm tools known t → t.head = s.head → (t.cache path).binary = none → Q false t) :
    Safe (contract tools known) (isBinaryCached tools source hash makeArgs) Q E s := by
  refine call_then (.inr hcalm) fun hI => ⟨trivial, fun x _ => ?_⟩
  simp only [exec, Entry.get, ← hpath]
  rcases hbinary : (s.cache path).binary with _ | content
  · exact pure_safe (hfalse s hcalm rfl hbinary)
  have hreport : (tools.namesModule content = true → (s.cache path).luaModule ≠ none) →
      Safe (contract tools known) (do
        Prog.run (.report source hash makeArgs path)
        .pure true) Q E s := by
    intro hbeside
    refine call_then (.inr hcalm) fun hI => ⟨right_of_calm hknown hI hcalm hmem hpath hbinary hbeside,
      fun x _ => pure_safe (htrue _ hcalm)⟩
  refine call_then (.inr hcalm) fun _ => ⟨trivial, fun x _ => ?_⟩
  simp only [exec, hbinary, Option.any_some]
  rcases hnames : tools.namesModule content with _ | _
  · exact hreport fun h => by rw [hnames] at h; cases h
  refine call_then (.inr hcalm) fun _ => ⟨trivial, fun x _ => ?_⟩
  simp only [exec, Entry.get]
  rcases hmodule : (s.cache path).luaModule with _ | luaModule
  · refine call_then (.inr hcalm) fun _ => ⟨trivial, fun x _ => pure_safe (hfalse _ ?_ rfl ?_)⟩
    · intro path' content' hcontent
      by_cases hpath' : path' = path
      · simp [exec, hpath'] at hcontent
      · simp only [exec, Function.update_of_ne hpath'] at hcontent
        exact hcalm path' content' hcontent
    · simp [exec]
  · exact hreport fun _ => by rw [hmodule]; exact Option.some_ne_none _

theorem calm_setBinary (h : Calm tools known s) (hbinary : BinaryOf tools known path content) :
    Calm tools known (s.setFile path .binary (some content)) := by
  intro path' content' hcontent
  by_cases hpath : path' = path
  · subst hpath
    simp only [Host.setFile, Function.update_self] at hcontent
    cases hcontent
    exact hbinary
  · simp only [Host.setFile, Function.update_of_ne hpath] at hcontent
    exact h path' content' hcontent

theorem binaryOf_upload (tools : Toolchain) (known : Set String) (content : Bytes)
    (makeArgs : String) :
    BinaryOf tools known (cachedBuildPath tools manuallyUploaded (tools.sha1sum content) makeArgs)
      content := by
  unfold BinaryOf cachedBuildPath
  rw [if_pos rfl]

theorem binaryOf_build {source hash makeArgs : String} (hsource : source ≠ manuallyUploaded)
    (hmem : makeArgs ∈ known) (hbuilt : (tools.build source hash makeArgs).binary = some content) :
    BinaryOf tools known (cachedBuildPath tools source hash makeArgs) content := by
  unfold BinaryOf cachedBuildPath
  rw [if_neg hsource]
  exact ⟨makeArgs, hmem, rfl, hbuilt⟩

section Entry

variable {source hash makeArgs : String}

/-- After `cp {module_src}`, whatever module lies in the entry is that of the
build in the source tree. -/
theorem cacheModule_safe (hknown : Known tools known) (hmem : makeArgs ∈ known)
    (hsource : source ≠ manuallyUploaded) (hcalm : Calm tools known s)
    (hpath : path = cachedBuildPath tools source hash makeArgs)
    (htree : s.tree source = tools.build source hash makeArgs)
    (hbinary : (s.cache path).binary = none) {Q : Unit → Host → Prop}
    (hQ : ∀ t, Calm tools known t →
      (t.tree source).binary = (tools.build source hash makeArgs).binary →
      (∀ luaModule, (t.cache path).luaModule = some luaModule →
        ModuleOf tools known path luaModule) → Q () t) :
    Safe (contract tools known) (cacheModule source path) Q E s := by
  refine call_then (.inr hcalm) fun hI => ⟨trivial, fun x _ => ?_⟩
  simp only [exec, htree, Build.get]
  rcases hmodule : (tools.build source hash makeArgs).luaModule with _ | content
  · refine pure_safe (hQ s hcalm (congrArg Build.binary htree) fun luaModule hfile => ?_)
    -- no build of this entry has a module, so nobody has put one there
    obtain ⟨-, a, ha, hhash, hsome⟩ := hI.grown path (by rw [hfile]; exact Option.some_ne_none _)
    subst hpath
    rw [hknown.apart ha hmem hhash] at hsome
    exact absurd hmodule hsome
  · have hhas : HasModule tools known path := by
      subst hpath
      refine ⟨hsource, makeArgs, hmem, rfl, ?_⟩
      show (tools.build source hash makeArgs).luaModule ≠ none
      rw [hmodule]
      exact Option.some_ne_none _
    refine Safe.bind (copy_safe (Q := fun _ t => Safe _ _ _ _ t) hcalm (fun _ => ⟨hbinary, hhas⟩) ?_)
    refine Safe.run ?_
    rintro _ rfl _
    refine ⟨⟨.inr (calm_setModule hcalm _), trivial⟩, fun x _ _ => ?_⟩
    rintro _ rfl _
    refine hQ _ (calm_setModule hcalm _) ?_ fun luaModule hfile => ?_
    · simp [effects, exec, Host.setFile, Build.binary, htree]
    · have hsame : some content = some luaModule := by
        simpa [effects, exec, Host.setFile, Entry.set] using hfile
      subst hpath
      refine ⟨hsource, makeArgs, hmem, rfl, ?_⟩
      rw [← hsame]
      exact hmodule

theorem cacheBinary_safe (hcalm : Calm tools known s)
    (hbinary : ∀ content, (s.tree source).binary = some content → BinaryOf tools known path content)
    (hmodule : ∀ luaModule, (s.cache path).luaModule = some luaModule →
      ModuleOf tools known path luaModule) {Q : Unit → Host → Prop}
    (hQ : ∀ t, Calm tools known t → Q () t) (hE : ∀ e t, Calm tools known t → E e t) :
    Safe (contract tools known) (cacheBinary source path) Q E s := by
  have hcopy : ∀ content, (s.tree source).binary = some content →
      Safe (contract tools known) (copy path .binary content) Q E s := fun content hcontent =>
    copy_safe hcalm (fun _ => hmodule) (hQ _ (calm_setBinary hcalm (hbinary content hcontent)))
  refine call_then (.inr hcalm) fun _ => ⟨trivial, fun x _ => ?_⟩
  simp only [exec, Build.get]
  rcases hserver : (s.tree source).valkeyServer with _ | content
  · refine call_then (.inr hcalm) fun _ => ⟨trivial, fun x _ => ?_⟩
    simp only [exec, Build.get]
    rcases hredis : (s.tree source).redisServer with _ | content
    · exact raise_safe (hE _ _ hcalm)
    · exact hcopy content (by rw [Build.binary, hserver, hredis]; rfl)
  · exact hcopy content (by rw [Build.binary, hserver]; rfl)

theorem buildEntry_safe (hknown : Known tools known) (hmem : makeArgs ∈ known)
    (hsource : source ≠ manuallyUploaded) (hcalm : Calm tools known s)
    (hpath : path = cachedBuildPath tools source (s.head source) makeArgs)
    (hbinary : (s.cache path).binary = none) {Q : Unit → Host → Prop}
    (hQ : ∀ t, Calm tools known t → Q () t) (hE : ∀ e t, Calm tools known t → E e t) :
    Safe (contract tools known) (buildEntry source makeArgs path) Q E s := by
  refine call_then (.inr hcalm) fun _ => ⟨trivial, fun x _ => ?_⟩
  refine call_then (.inr hcalm) fun _ => ⟨trivial, fun x _ => ?_⟩
  simp only [exec]
  rcases x.succeeds with _ | _
  · exact raise_safe (hE _ _ hcalm)
  · refine Safe.bind ?_
    refine cacheModule_safe hknown hmem hsource ?_ hpath ?_ ?_ fun t hcalm' htree hmodule => ?_
    · exact hcalm
    · simp only [Function.update_self, if_true]
    · exact hbinary
    refine cacheBinary_safe hcalm' (fun content hcontent => ?_) hmodule hQ hE
    rw [htree] at hcontent
    subst hpath
    exact binaryOf_build hsource hmem hcontent

end Entry

/-- **A call keeps its promises** from every host where no copy is under way,
and ends in one. -/
theorem ensureBinaryCached_safe (hknown : Known tools known) (hcalm : Calm tools known s)
    {m : Manager} (hmem : m.makeArgs ∈ known) {Q : Unit → Host → Prop}
    (hQ : ∀ t, Calm tools known t → Q () t) (hE : ∀ e t, Calm tools known t → E e t) :
    Safe (contract tools known) (ensureBinaryCached tools m) Q E s := by
  unfold ensureBinaryCached
  split
  · exact raise_safe (hE _ _ hcalm)
  · next source _ =>
    split
    · next hmanual =>
      refine call_then (.inr hcalm) fun _ => ⟨trivial, fun x _ => ?_⟩
      simp only [exec]
      rcases x.upload with _ | content
      · exact raise_safe (hE _ _ hcalm)
      · refine Safe.bind (isBinaryCached_safe hknown hcalm hmem rfl
          (fun t hcalm' => pure_safe (hQ t hcalm')) fun t hcalm' _ _ => ?_)
        refine copy_safe hcalm' (fun hI luaModule hfile => ?_)
          (hQ _ (calm_setBinary hcalm' (binaryOf_upload tools known content m.makeArgs)))
        -- nobody puts a module beside an upload
        have hhas := hI.grown _ (by rw [hfile]; exact Option.some_ne_none _)
        exact absurd rfl hhas.1
    · next hmanual =>
      split
      · exact raise_safe (hE _ _ hcalm)
      · refine call_then (.inr hcalm) fun _ => ⟨trivial, fun x _ => ?_⟩
        simp only [exec]
        rcases x.commit with _ | commit
        · exact raise_safe (hE _ _ hcalm)
        · refine call_then (.inr hcalm) fun _ => ⟨trivial, fun x _ => ?_⟩
          simp only [exec]
          refine Safe.bind ?_
          refine isBinaryCached_safe hknown ?_ hmem rfl
            (fun t hcalm' => pure_safe (hQ t hcalm')) fun t hcalm' hhead hnone => ?_
          · exact hcalm
          refine buildEntry_safe hknown hmem hmanual hcalm' ?_ hnone hQ hE
          rw [hhead]

/-! ## Runs -/

/-- A host nobody has built on. -/
def Host.fresh (head : String → String) (tree : String → Build) : Host :=
  ⟨head, tree, fun _ => ⟨none, none⟩, []⟩

theorem keep_makeArgs {m : Manager} {a : Arguments} (hm : m.makeArgs ∈ known)
    (ha : ∀ makeArgs, a.makeArgs = some makeArgs → makeArgs ∈ known) :
    (m.update a).makeArgs ∈ known := by
  rcases hargs : a.makeArgs with _ | makeArgs
  · simpa [Manager.update, hargs] using hm
  · simpa [Manager.update, hargs] using ha makeArgs hargs

/-- The condition on what happens: calls use known make arguments, and nobody
dies between two bytes of a binary that is being copied into the cache. -/
def Allowed (known : Set String) : Host × Act Manager → Occurrence Choice Empty → Prop
  | (s, .call c _), .act x => ChoiceOk known c x s
  | (_, .call c _), .crash => ¬ Midway c
  | _, _ => True

/-- One occurrence of such a run. -/
def Step (tools : Toolchain) (known : Set String) (a : Host × Act Manager)
    (e : Occurrence Choice Empty) (b : Host × Act Manager) : Prop :=
  Allowed known a e ∧ b = (machine tools).step (effects tools) a e

/-- A step of a run the machine rule covers. -/
def CoveredStep (tools : Toolchain) (known : Set String) (a : Host × Act Manager)
    (e : Occurrence Choice Empty) (b : Host × Act Manager) : Prop :=
  Machine.Covers (contract tools known) (Calm tools known) a e ∧
    b = (machine tools).step (effects tools) a e

/-- The machine keeps its promises in every covered run. -/
theorem covered_safe (hknown : Known tools known) {head : String → String} {tree : String → Build}
    {es : List (Occurrence Choice Empty)} {t : Host × Act Manager}
    (hrun : Run (CoveredStep tools known) (Host.fresh head tree, (machine tools).boot) es t) :
    Inv tools known t.1 ∧ Safe (contract tools known) t.2
      (fun m s => m.makeArgs ∈ known ∧ Calm tools known s) (fun _ => Calm tools known) t.1 := by
  have hfresh : Inv tools known (Host.fresh head tree) :=
    ⟨fun _ hsome => absurd rfl hsome, fun _ hsome => absurd rfl hsome, by simp [Host.fresh]⟩
  have hcalm : Calm tools known (Host.fresh head tree) := fun _ _ hsome => by cases hsome
  refine Machine.run_safe (machine tools) (contract tools known) (Calm tools known)
    (fun s _ hcalm => pure_safe ⟨hknown.default, hcalm⟩) (fun m s _ hm => ?_) hrun hfresh hcalm
  refine call_then (.inr hm.2) fun _ => ⟨trivial, fun x hx => ?_⟩
  have hmem := keep_makeArgs (a := x.arguments) hm.1 hx
  refine Safe.bind ?_
  refine ensureBinaryCached_safe hknown ?_ hmem (fun t hcalm' => pure_safe ⟨hmem, hcalm'⟩)
    fun _ _ hcalm' => hcalm'
  exact hm.2

/-- Outside the copy of a binary the host is calm, so a death there is covered. -/
theorem allowed_covered {a : Host × Act Manager} {e : Occurrence Choice Empty}
    (hI : Inv tools known a.1) (hsafe : Safe (contract tools known) a.2
      (fun m s => m.makeArgs ∈ known ∧ Calm tools known s) (fun _ => Calm tools known) a.1)
    (h : Allowed known a e) : Machine.Covers (contract tools known) (Calm tools known) a e := by
  obtain ⟨s, p⟩ := a
  rcases e with x | e | _
  · rcases p with _ | _ | ⟨c, k⟩
    · trivial
    · trivial
    · exact h
  · exact nomatch e
  · rcases p with m | e | ⟨c, k⟩
    · exact (hsafe s rfl hI).2
    · exact hsafe s rfl hI
    · rcases (hsafe s rfl hI).1.1 with hmidway | hcalm
      · exact absurd hmidway h
      · exact hcalm

theorem run_covered (hknown : Known tools known) {head : String → String} {tree : String → Build}
    {es : List (Occurrence Choice Empty)} {t : Host × Act Manager}
    (hrun : Run (Step tools known) (Host.fresh head tree, (machine tools).boot) es t) :
    Run (CoveredStep tools known) (Host.fresh head tree, (machine tools).boot) es t := by
  induction hrun with
  | refl => exact .refl _
  | snoc _ hstep ih =>
    obtain ⟨hI, hsafe⟩ := covered_safe hknown ih
    exact .snoc ih ⟨allowed_covered hI hsafe hstep.1, hstep.2⟩

/-- **Every hit is right** in every run where no death falls inside the copy of a
binary and the make arguments have different hashes. -/
theorem hits_right (hknown : Known tools known) {head : String → String} {tree : String → Build}
    {es : List (Occurrence Choice Empty)} {t : Host × Act Manager}
    (hrun : Run (Step tools known) (Host.fresh head tree, (machine tools).boot) es t) :
    ∀ h ∈ t.1.hits, h.Right tools :=
  (covered_safe hknown (run_covered hknown hrun)).1.hits

/-! ### One host -/

/-- A host with one repository, and a commit without a Lua module. -/
def oneCommit : Toolchain where
  build _ _ _ := ⟨some [0x7f, 0x45, 0x4c, 0x46], none, none⟩
  readelf _ := []
  md5Prefix _ := "d41d8cd98f00b204"
  sha1sum _ := "da39a3ee5e6b4b0d3255bfef95601890afd80709"
  repoNames := ["valkey"]
  defaultMakeArgs := ""

theorem oneCommit_known : Known oneCommit {""} :=
  ⟨rfl, Set.injOn_singleton _ _⟩

/-- The call for its one commit, and a build that succeeds. -/
def oneChoice : Choice where
  arguments := ⟨some "valkey", some "unstable", none⟩
  commit    := some "8f5a1b2c"
  succeeds  := true
  debris    := .empty
  upload    := none

def oneHost : Host := Host.fresh (fun _ => "") (fun _ => .empty)

theorem acts_run (tools : Toolchain) (known : Set String) {x : Choice} (hx : x.arguments.makeArgs = none)
    (a : Host × Act Manager) : ∀ n, ∃ b, Run (Step tools known) a (List.replicate n (.act x)) b ∧
      b = (List.replicate n (.act x)).foldl ((machine tools).step (effects tools)) a
  | 0 => ⟨a, .refl a, rfl⟩
  | n + 1 => by
    obtain ⟨b, hrun, hb⟩ :=
      acts_run tools known hx ((machine tools).step (effects tools) a (.act x)) n
    refine ⟨b, Run.cons ⟨?_, rfl⟩ hrun, hb⟩
    obtain ⟨s, p⟩ := a
    rcases p with _ | _ | ⟨c, k⟩
    · trivial
    · trivial
    · rcases c
      case nextCall => exact fun makeArgs h => by rw [hx] at h; cases h
      all_goals trivial

/-- Two calls, one after the other: the second one hits what the first one
built. -/
theorem hits_right_oneCommit : ∃ es t,
    Run (Step oneCommit {""}) (oneHost, (machine oneCommit).boot) es t ∧
      t.1.hits.length = 1 ∧ ∀ h ∈ t.1.hits, h.Right oneCommit := by
  obtain ⟨t, hrun, ht⟩ := acts_run oneCommit {""} (x := oneChoice) rfl
    (oneHost, (machine oneCommit).boot) 22
  refine ⟨_, t, hrun, ?_, hits_right oneCommit_known hrun⟩
  rw [ht]
  rfl

/-- The process dies when the first of the four bytes is in the cache. The next
call hits, and the file it reports is the one byte. -/
theorem torn_copy_hits : ∃ es t,
    Run (fun a e b => b = (machine oneCommit).step (effects oneCommit) a e)
      (oneHost, (machine oneCommit).boot) es t ∧
      ∃ h ∈ t.1.hits, h.entry.binary = some [0x7f] ∧ ¬ h.Right oneCommit := by
  refine ⟨List.replicate 11 (.act oneChoice) ++ [.crash] ++ List.replicate 8 (.act oneChoice), _,
    Run.of_fun _ _ _, ⟨"valkey", "8f5a1b2c", "", ⟨some [0x7f], none⟩⟩, ?_, rfl, ?_⟩
  · exact List.mem_singleton_self _
  · rintro ⟨content, hbinary, hright, -⟩
    have hmanual : ¬ ("valkey" : String) = manuallyUploaded := by decide
    rw [if_neg hmanual] at hright
    cases hbinary
    cases hright

end Conductress.BinaryManager
