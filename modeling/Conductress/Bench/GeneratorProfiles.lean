import Conductress.Lib.Attempt
import Mathlib.Logic.Function.Basic

/-!
# Built load generators

`resolve_bench_binary` and `bootstrap_profile` as programs over the commands they run and
the files they read and write. Each may fail half way, and the process may die between two
of them.

Unlike `ensure_cachecannon`, the fast path trusts a manifest that says what the binary was
built from and what its hash is. The manifest is written last:

* `Sound` — a manifest that can be read gives the hash of a build of its own commit, and the
  binary that is installed is a whole build;
* `within_resolveBenchBinary` — one call keeps this wherever it ends;
* `resolved_truthful` — after any calls, for any profiles, to their ends or not, what is
  returned is a build of the commit and with the arguments that the provenance names.

The repository is another matter: a clone that is there is fetched from where it came from,
whatever the URL of the profile is by now.
-/

namespace Conductress.GeneratorProfiles

open Lib Prog

/-! ## Profiles and files -/

/-- A `GeneratorProfile`; `binary_name` is the default in all of them. -/
structure GeneratorProfile where
  name      : String
  repoUrl   : String
  commitSha : String
  buildArgs : String
  deriving DecidableEq

def legacyV1 : GeneratorProfile where
  name      := "legacy-v1"
  repoUrl   := "https://github.com/valkey-io/valkey.git"
  commitSha := "d2eee78a151884518441572c53fc378bf6689e81"
  buildArgs := ""

def scalableV2 : GeneratorProfile where
  name      := "scalable-v2"
  repoUrl   := "https://github.com/valkey-rainfall/valkey.git"
  commitSha := "026288e2aaedc757c3dd8d347c237e669086a948"
  buildArgs := ""

/-- `PROFILES`. -/
def registry : List GeneratorProfile := [legacyV1, scalableV2]

/-- What a file of a program holds. -/
inductive Content where
  /-- A build of a commit of a repository with some arguments; two of them need not be the same. -/
  | build (origin commit args : String) (salt : ℕ)
  /-- The beginning of a file, or a build of a tree that is no commit. -/
  | other (salt : ℕ)
  deriving DecidableEq

/-- A build, all of it. -/
def Content.Whole (c : Content) : Prop :=
  ∃ origin commit args salt, c = .build origin commit args salt

/-- A `GeneratorManifest`, its hashes of any kind. -/
structure GeneratorManifest (Digest : Type) where
  profileName  : String
  repoUrl      : String
  commitSha    : String
  buildArgs    : String
  binarySha256 : Digest
  deriving DecidableEq

inductive ManifestFile (Digest : Type) where
  | document (m : GeneratorManifest Digest)
  | unreadable
  deriving DecidableEq

def ManifestFile.manifest? {Digest : Type} : ManifestFile Digest → Option (GeneratorManifest Digest)
  | document m => some m
  | unreadable => none

/-- `src`: whether it is a repository, where it was cloned from, the commit its files are of, and
`src/valkey-benchmark`. -/
structure SourceTree where
  git      : Bool
  origin   : String
  head     : Option String
  produced : Option Content
  deriving DecidableEq

/-- The directory of a profile. -/
structure InstallDir (Digest : Type) where
  src         : Option SourceTree
  binaryTmp   : Option Content
  binary      : Option Content
  manifestTmp : Option (ManifestFile Digest)
  manifest    : Option (ManifestFile Digest)
  deriving DecidableEq

/-! ## Commands -/

/-- What is asked of the host and of its file system; no answer is an exception. -/
inductive HostCommand (Digest : Type) : Type → Type
  /-- `GeneratorManifest.load`. -/
  | load : HostCommand Digest (Option (Option (GeneratorManifest Digest)))
  | binaryExists : HostCommand Digest (Option Bool)
  /-- `_sha256_file`, of the binary. -/
  | sha256File : HostCommand Digest (Option Digest)
  | isRepository : HostCommand Digest (Option Bool)
  | gitFetch : HostCommand Digest (Option Unit)
  | mkdir : HostCommand Digest (Option Unit)
  | gitClone (repoUrl : String) : HostCommand Digest (Option Unit)
  /-- `git reset --hard`. -/
  | gitReset (commit : String) : HostCommand Digest (Option Unit)
  /-- `make distclean && cd src && MAKEFLAGS= make -j valkey-benchmark`. -/
  | make (args : String) : HostCommand Digest (Option Unit)
  | builtExists : HostCommand Digest (Option Bool)
  | copyBuilt : HostCommand Digest (Option Unit)
  | chmod : HostCommand Digest (Option Unit)
  | renameBinary : HostCommand Digest (Option Unit)
  | writeManifest (m : GeneratorManifest Digest) : HostCommand Digest (Option Unit)
  | renameManifest : HostCommand Digest (Option Unit)

/-- What the files do not decide: whether a command fails, and what is new in what it leaves. -/
structure Luck where
  fails : Option Extent
  salt  : ℕ
  tip   : String

section Host

variable {Digest : Type} (s : InstallDir Digest) (x : Luck)

namespace InstallDir

/-- A clone that breaks off can leave a directory, with or without `.git` in it. -/
def cloned (repoUrl : String) : Extent → InstallDir Digest
  | .nothing => s
  | .part => { s with src := some ⟨decide (x.salt % 2 = 0), repoUrl, none, none⟩ }
  | .all => { s with src := some ⟨true, repoUrl, some x.tip, none⟩ }

/-- The output of a build is not under version control. -/
def reset (commit : String) : Extent → InstallDir Digest
  | .nothing => s
  | .part => { s with src := s.src.map fun tree => { tree with head := none } }
  | .all => { s with src := s.src.map fun tree => { tree with head := some commit } }

/-- What `make` builds, from a commit or from files between two of them. -/
def product (args : String) (tree : SourceTree) : Content :=
  match tree.head with
  | some commit => .build tree.origin commit args x.salt
  | none => .other x.salt

def made (args : String) : Extent → InstallDir Digest
  | .nothing => s
  | .part => { s with src := s.src.map fun tree =>
      { tree with produced := if x.salt % 2 = 0 then none else some (.other x.salt) } }
  | .all =>
    { s with src := s.src.map fun tree => { tree with produced := some (product x args tree) } }

def produced : Option Content := s.src.bind SourceTree.produced

def copied : Extent → InstallDir Digest
  | .nothing => s
  | .part => { s with binaryTmp := some (.other x.salt) }
  | .all => { s with binaryTmp := s.produced }

/-- A file is renamed, or it is not. -/
def binaryRenamed : Extent → InstallDir Digest
  | .all => { s with binary := s.binaryTmp, binaryTmp := none }
  | _ => s

def manifestWritten (m : GeneratorManifest Digest) : Extent → InstallDir Digest
  | .nothing => s
  | .part => { s with manifestTmp := some .unreadable }
  | .all => { s with manifestTmp := some (.document m) }

def manifestRenamed : Extent → InstallDir Digest
  | .all => { s with manifest := s.manifestTmp, manifestTmp := none }
  | _ => s

end InstallDir

/-- A command that can do its work: all of it, unless it fails. -/
def attempted {α : Type} (able : Bool) (out : α) (effect : Extent → InstallDir Digest) :
    Option α × InstallDir Digest :=
  match x.fails with
  | some extent => (none, if able then effect extent else s)
  | none => if able then (some out, effect .all) else (none, s)

variable (sha256 : Content → Digest)

/-- `_sha256_file`, of a binary that may be missing. -/
def hashed : Option Digest × InstallDir Digest :=
  match s.binary with
  | some content => attempted s x true (sha256 content) fun _ => s
  | none => (none, s)

def exec : {β : Type} → HostCommand Digest β → Luck → InstallDir Digest → β × InstallDir Digest
  -- whatever goes wrong with the file, `load` returns
  | _, .load, x, s =>
    (some (if x.fails = none then s.manifest.bind ManifestFile.manifest? else none), s)
  | _, .binaryExists, x, s => attempted s x true s.binary.isSome fun _ => s
  | _, .sha256File, x, s => hashed s x sha256
  | _, .isRepository, x, s => attempted s x true (s.src.any SourceTree.git) fun _ => s
  | _, .gitFetch, x, s => attempted s x (s.src.any SourceTree.git) () fun _ => s
  | _, .mkdir, x, s => attempted s x true () fun _ => s
  -- git refuses a directory that is there
  | _, .gitClone repoUrl, x, s => attempted s x s.src.isNone () (s.cloned x repoUrl)
  | _, .gitReset commit, x, s => attempted s x (s.src.any SourceTree.git) () (s.reset commit)
  | _, .make args, x, s => attempted s x s.src.isSome () (s.made x args)
  | _, .builtExists, x, s => attempted s x true s.produced.isSome fun _ => s
  | _, .copyBuilt, x, s => attempted s x s.produced.isSome () (s.copied x)
  | _, .chmod, x, s => attempted s x s.binaryTmp.isSome () fun _ => s
  | _, .renameBinary, x, s => attempted s x s.binaryTmp.isSome () s.binaryRenamed
  | _, .writeManifest m, x, s => attempted s x true () (s.manifestWritten m)
  | _, .renameManifest, x, s => attempted s x s.manifestTmp.isSome () s.manifestRenamed

/-- The directory of a profile belongs to the runner. -/
def effects : Effects (HostCommand Digest) (InstallDir Digest) Luck Empty where
  exec := exec sha256
  interfere e := nomatch e

end Host

/-! ## The programs -/

inductive BootstrapError where
  /-- `RuntimeError`, `OSError` or `TimeoutExpired`, of a command. -/
  | commandFailed
  /-- `Build did not produce ..`. -/
  | fileNotFound
  /-- `Unknown generator profile ..`. -/
  | keyError (name : String)
  deriving DecidableEq

/-- Where the binary of a task is. -/
inductive BinaryPath where
  | given (path : String)
  /-- `GENERATOR_DIR / name / "valkey-benchmark"`. -/
  | ofProfile (name : String)
  deriving DecidableEq

/-- The provenance dictionary; without a manifest its hash is the empty text. -/
inductive Provenance (Digest : Type) where
  | customOverride (benchBinary : String)
  | built (generatorProfile generatorRepo generatorCommit generatorBuildArgs : String)
      (generatorBinarySha256 : Option Digest)
  deriving DecidableEq

section Programs

variable {Digest : Type}

abbrev Act (Digest α : Type) := Prog (HostCommand Digest) BootstrapError α

/-- A command, whose exceptions nobody catches. -/
def perform {α : Type} (c : HostCommand Digest (Option α)) : Act Digest α := do
  match ← .run c with
  | some out => .pure out
  | none => .raise .commandFailed

variable (p : GeneratorProfile)

/-- The fast path: the binary is there, and the manifest is of the profile and of the binary. -/
def cachedOk [DecidableEq Digest] : Act Digest Bool := do
  match ← perform .load with
  | none => .pure false
  | some m =>
    match ← perform .binaryExists with
    | false => .pure false
    | true =>
      if m.profileName = p.name ∧ m.commitSha = p.commitSha ∧ m.buildArgs = p.buildArgs ∧
          m.repoUrl = p.repoUrl then do
        let digest ← perform .sha256File
        .pure (decide (m.binarySha256 = digest))
      else .pure false

/-- The source, at the commit of the profile. -/
def checkOut : Act Digest Unit := do
  match ← perform .isRepository with
  | true => perform .gitFetch
  | false => do
    perform .mkdir
    perform (.gitClone p.repoUrl)
  perform (.gitReset p.commitSha)

def build : Act Digest Unit := do
  perform (.make p.buildArgs)
  match ← perform .builtExists with
  | true => .pure ()
  | false => .raise .fileNotFound

/-- The binary is copied beside its place and renamed. -/
def install : Act Digest Unit := do
  perform .mkdir
  perform .copyBuilt
  perform .chmod
  perform .renameBinary

/-- `new_manifest`, and `GeneratorManifest.save`. -/
def record : Act Digest Unit := do
  let digest ← perform .sha256File
  perform .mkdir
  perform (.writeManifest ⟨p.name, p.repoUrl, p.commitSha, p.buildArgs, digest⟩)
  perform .renameManifest

/-- `bootstrap_profile`; the path it returns is that of the profile. -/
def bootstrapProfile [DecidableEq Digest] : Act Digest Unit := do
  match ← cachedOk p with
  | true => .pure ()
  | false => do
    checkOut p
    build p
    install
    record p

/-- `get_profile`. -/
def getProfile (profiles : List GeneratorProfile) (name : String) : Act Digest GeneratorProfile :=
  match profiles.find? fun p => p.name = name with
  | some p => .pure p
  | none => .raise (.keyError name)

/-- `resolve_bench_binary`. -/
def resolveBenchBinary [DecidableEq Digest] (profiles : List GeneratorProfile)
    (name override : String) : Act Digest (BinaryPath × Provenance Digest) :=
  if override = "" then do
    let p ← getProfile profiles name
    bootstrapProfile p
    let m ← perform .load
    .pure (.ofProfile p.name,
      .built p.name p.repoUrl p.commitSha p.buildArgs (m.map GeneratorManifest.binarySha256))
  else .pure (.given override, .customOverride override)

end Programs

/-! ## What one command does -/

section Commands

variable {Digest : Type} {sha256 : Content → Digest} {s t : InstallDir Digest} {x : Luck}

theorem attempted_snd {α : Type} {able : Bool} {out : α} {effect : Extent → InstallDir Digest} :
    (attempted s x able out effect).2 = s ∨
      ∃ extent, (attempted s x able out effect).2 = effect extent := by
  unfold attempted
  cases x.fails <;> cases able
  · exact .inl rfl
  · exact .inr ⟨.all, rfl⟩
  · exact .inl rfl
  · exact .inr ⟨_, rfl⟩

/-- A command that answers has done all of its work. -/
theorem attempted_some {α : Type} {able : Bool} {out a : α} {effect : Extent → InstallDir Digest}
    (h : (attempted s x able out effect).1 = some a) :
    able = true ∧ a = out ∧ (attempted s x able out effect).2 = effect .all := by
  unfold attempted at h ⊢
  cases hfails : x.fails with
  | some extent =>
    rw [hfails] at h
    cases h
  | none =>
    rw [hfails] at h
    cases able with
    | false => cases h
    | true => exact ⟨rfl, (Option.some.inj h).symm, rfl⟩

/-- The two commands that change what is in place. -/
def HostCommand.renames : {β : Type} → HostCommand Digest β → Bool
  | _, .renameBinary => true
  | _, .renameManifest => true
  | _, _ => false

/-- What is in place: the binary and its manifest. -/
def InstallDir.placed (s : InstallDir Digest) : Option Content × Option (ManifestFile Digest) :=
  (s.binary, s.manifest)

theorem placed_attempted {α : Type} {able : Bool} {out : α} {effect : Extent → InstallDir Digest}
    (h : ∀ extent, (effect extent).placed = s.placed) :
    (attempted s x able out effect).2.placed = s.placed := by
  rcases attempted_snd with hsame | ⟨extent, heffect⟩
  · rw [hsame]
  · rw [heffect, h]

/-- **All others** work beside it. -/
theorem placed_exec {β : Type} {c : HostCommand Digest β} (h : c.renames = false) :
    (exec sha256 c x s).2.placed = s.placed := by
  cases c with
  | load => rfl
  | sha256File =>
    show (hashed s x sha256).2.placed = s.placed
    unfold hashed
    split
    · exact placed_attempted fun _ => rfl
    · rfl
  | renameBinary => cases h
  | renameManifest => cases h
  | binaryExists => exact placed_attempted fun _ => rfl
  | isRepository => exact placed_attempted fun _ => rfl
  | gitFetch => exact placed_attempted fun _ => rfl
  | mkdir => exact placed_attempted fun _ => rfl
  | builtExists => exact placed_attempted fun _ => rfl
  | chmod => exact placed_attempted fun _ => rfl
  | gitClone url => exact placed_attempted fun extent => by cases extent <;> rfl
  | gitReset commit => exact placed_attempted fun extent => by cases extent <;> rfl
  | make args => exact placed_attempted fun extent => by cases extent <;> rfl
  | copyBuilt => exact placed_attempted fun extent => by cases extent <;> rfl
  | writeManifest m => exact placed_attempted fun extent => by cases extent <;> rfl

/-! ## The invariant -/

/-- What is in place is whole, and what a manifest says of its hash is true. -/
structure Sound (sha256 : Content → Digest) (s : InstallDir Digest) : Prop where
  whole    : ∀ c, s.binary = some c → c.Whole
  attested : ∀ m, s.manifest = some (.document m) →
    ∃ origin salt, m.binarySha256 = sha256 (.build origin m.commitSha m.buildArgs salt)

theorem Sound.of_placed (h : Sound sha256 s) (hsame : t.placed = s.placed) : Sound sha256 t := by
  obtain ⟨hbinary, hmanifest⟩ := Prod.mk.inj hsame
  constructor
  · intro c hc
    exact h.whole c (hbinary ▸ hc)
  · intro m hm
    exact h.attested m (hmanifest ▸ hm)

/-- A directory in which nothing was ever built. -/
def InstallDir.empty : InstallDir Digest := ⟨none, none, none, none, none⟩

theorem sound_empty : Sound sha256 (.empty : InstallDir Digest) where
  whole    := fun _ hc => by cases hc
  attested := fun _ hm => by cases hm

variable {α : Type} {Q : α → InstallDir Digest → Prop}

/-- A command that answers is followed by the rest of the program; one that raises, by nothing. -/
theorem within_perform {c : HostCommand Digest (Option α)} (hs : Sound sha256 s)
    (h : ∀ x, Sound sha256 (exec sha256 c x s).2 ∧
      ∀ a, (exec sha256 c x s).1 = some a → Q a (exec sha256 c x s).2) :
    (perform c).Within (effects sha256) (Sound sha256) Q s := by
  unfold perform
  rw [within_bind, within_run]
  refine ⟨hs, fun x => ⟨(h x).1, ?_⟩⟩
  obtain ⟨hsound, hanswer⟩ := h x
  show Within _ _ _ (match (exec sha256 c x s).1 with
    | some out => _
    | none => _) (exec sha256 c x s).2
  revert hanswer
  cases (exec sha256 c x s).1 with
  | none => exact fun _ => hsound
  | some a => exact fun hanswer => ⟨hsound, hanswer a rfl⟩

/-- One that leaves alone what is in place. -/
theorem within_beside {c : HostCommand Digest (Option α)} (hc : c.renames = false)
    (hs : Sound sha256 s)
    (h : ∀ x t a, t.placed = s.placed → exec sha256 c x s = (some a, t) → Q a t) :
    (perform c).Within (effects sha256) (Sound sha256) Q s := by
  refine within_perform hs fun x => ⟨hs.of_placed (placed_exec hc), fun a ha => ?_⟩
  exact h x _ a (placed_exec hc) (Prod.ext ha rfl)

theorem exec_attempted {able : Bool} {out a : α} {effect : Extent → InstallDir Digest}
    (h : attempted s x able out effect = (some a, t)) :
    able = true ∧ a = out ∧ t = effect .all := by
  obtain ⟨hable, ha, heffect⟩ := attempted_some (congrArg Prod.fst h)
  exact ⟨hable, ha, (congrArg Prod.snd h).symm.trans heffect⟩

/-! ## The parts of the program -/

variable {p : GeneratorProfile}

/-- The files of `src` are of the commit. -/
def At (commit : String) (s : InstallDir Digest) : Prop :=
  ∃ tree, s.src = some tree ∧ tree.head = some commit

theorem at_reset (h : s.src.any SourceTree.git = true) (commit : String) :
    At commit (s.reset commit .all) := by
  obtain ⟨src, binaryTmp, binary, manifestTmp, manifest⟩ := s
  cases src with
  | none => cases h
  | some tree => exact ⟨{ tree with head := some commit }, rfl, rfl⟩

theorem within_checkOut (hs : Sound sha256 s) :
    (checkOut p).Within (effects sha256) (Sound sha256) (fun _ t => At p.commitSha t) s := by
  -- whatever came before it, the reset puts the commit there
  have hreset : ∀ t : InstallDir Digest, Sound sha256 t →
      (perform (.gitReset p.commitSha)).Within (effects sha256) (Sound sha256)
        (fun _ u => At p.commitSha u) t := by
    intro t ht
    refine within_beside rfl ht fun x u _ _ hexec => ?_
    obtain ⟨hable, -, rfl⟩ := exec_attempted hexec
    exact at_reset hable p.commitSha
  unfold checkOut
  rw [within_bind]
  refine within_beside rfl hs fun x t there hplaced _ => ?_
  have ht := hs.of_placed hplaced
  cases there with
  | true =>
    rw [within_bind]
    exact within_beside rfl ht fun y u _ hplaced' _ => hreset u (ht.of_placed hplaced')
  | false =>
    rw [within_bind]
    refine within_beside rfl ht fun y u _ hplaced' _ => ?_
    have hu := ht.of_placed hplaced'
    rw [within_bind]
    exact within_beside rfl hu fun z v _ hplaced'' _ => hreset v (hu.of_placed hplaced'')

/-- The build is one of the commit. -/
def Built (p : GeneratorProfile) (c : Content) : Prop :=
  ∃ origin salt, c = .build origin p.commitSha p.buildArgs salt

theorem produced_made (h : At p.commitSha s) (x : Luck) :
    ∃ c, (s.made x p.buildArgs .all).produced = some c ∧ Built p c := by
  obtain ⟨tree, htree, hhead⟩ := h
  refine ⟨.build tree.origin p.commitSha p.buildArgs x.salt, ?_, tree.origin, x.salt, rfl⟩
  show (s.src.map _).bind _ = _
  rw [htree]
  show some (InstallDir.product x p.buildArgs tree) = _
  rw [InstallDir.product, hhead]

theorem within_build (hs : Sound sha256 s) (hat : At p.commitSha s) :
    (build p).Within (effects sha256) (Sound sha256)
      (fun _ t => ∃ c, t.produced = some c ∧ Built p c) s := by
  unfold build
  rw [within_bind]
  refine within_beside rfl hs fun x t _ hplaced hexec => ?_
  have ht := hs.of_placed hplaced
  obtain ⟨-, -, rfl⟩ := exec_attempted hexec
  rw [within_bind]
  refine within_beside rfl ht fun y u there hplaced' hexists => ?_
  obtain ⟨-, -, rfl⟩ := exec_attempted hexists
  cases there with
  | true => exact ⟨ht, produced_made hat x⟩
  | false => exact ht

/-- **The installed binary** is the one that was built. -/
theorem within_install {c : Content} (hs : Sound sha256 s) (hproduced : s.produced = some c)
    (hbuilt : Built p c) :
    install.Within (effects sha256) (Sound sha256) (fun _ t => t.binary = some c) s := by
  unfold install
  rw [within_bind]
  refine within_beside rfl hs fun x t _ hplaced hmkdir => ?_
  have ht := hs.of_placed hplaced
  obtain ⟨-, -, hsame⟩ := exec_attempted hmkdir
  rw [within_bind]
  refine within_beside rfl ht fun y u _ hplaced' hcopy => ?_
  have hu := ht.of_placed hplaced'
  obtain ⟨-, -, hcopied⟩ := exec_attempted hcopy
  rw [within_bind]
  refine within_beside rfl hu fun z v _ hplaced'' hchmod => ?_
  have hv := hu.of_placed hplaced''
  obtain ⟨-, -, hsame'⟩ := exec_attempted hchmod
  have htmp : v.binaryTmp = some c := by
    rw [hsame', hcopied]
    show t.produced = some c
    rw [hsame]
    exact hproduced
  -- the rename puts all of the copy in place, or nothing
  refine within_perform hv fun w => ⟨?_, fun _ hanswer => ?_⟩
  · rcases attempted_snd with hkept | ⟨extent, heffect⟩
    · exact hkept ▸ hv
    · refine heffect ▸ ?_
      cases extent with
      | nothing => exact hv
      | part => exact hv
      | all =>
        refine ⟨fun d hd => ?_, hv.attested⟩
        obtain ⟨origin, salt, rfl⟩ := hbuilt
        have hd : v.binaryTmp = some d := hd
        rw [htmp] at hd
        exact ⟨_, _, _, _, (Option.some.inj hd).symm⟩
  · obtain ⟨-, -, heffect⟩ := attempted_some hanswer
    exact (congrArg InstallDir.binary heffect).trans htmp

/-- What `GeneratorManifest.load` may find when a call is over. -/
def Certified (sha256 : Content → Digest) (p : GeneratorProfile) (s : InstallDir Digest) : Prop :=
  ∃ c, s.binary = some c ∧ Built p c ∧
    ∃ m, s.manifest = some (.document m) ∧ m.binarySha256 = sha256 c

/-- **The manifest** is written when the binary is in place, and of that binary. -/
theorem within_record {c : Content} (hs : Sound sha256 s) (hbinary : s.binary = some c)
    (hbuilt : Built p c) :
    (record p).Within (effects sha256) (Sound sha256) (fun _ t => Certified sha256 p t) s := by
  unfold record
  rw [within_bind]
  refine within_beside rfl hs fun x t digest hplaced hhash => ?_
  have ht := hs.of_placed hplaced
  have hdigest : digest = sha256 c := by
    have hhashed : hashed s x sha256 = (some digest, t) := hhash
    unfold hashed at hhashed
    rw [hbinary] at hhashed
    exact (exec_attempted hhashed).2.1
  have htb : t.binary = some c := (congrArg Prod.fst hplaced).trans hbinary
  rw [within_bind]
  refine within_beside rfl ht fun y u _ hplaced' _ => ?_
  have hu := ht.of_placed hplaced'
  have hub : u.binary = some c := (congrArg Prod.fst hplaced').trans htb
  rw [within_bind]
  refine within_beside rfl hu fun z v _ hplaced'' hwrite => ?_
  have hv := hu.of_placed hplaced''
  have hvb : v.binary = some c := (congrArg Prod.fst hplaced'').trans hub
  obtain ⟨-, -, hwritten⟩ := exec_attempted hwrite
  have htmp : v.manifestTmp =
      some (.document ⟨p.name, p.repoUrl, p.commitSha, p.buildArgs, digest⟩) := by
    rw [hwritten]
    rfl
  refine within_perform hv fun w => ⟨?_, fun _ hanswer => ?_⟩
  · rcases attempted_snd with hkept | ⟨extent, heffect⟩
    · exact hkept ▸ hv
    · refine heffect ▸ ?_
      cases extent with
      | nothing => exact hv
      | part => exact hv
      | all =>
        refine ⟨hv.whole, fun m hm => ?_⟩
        have hm : v.manifestTmp = some (.document m) := hm
        rw [htmp, Option.some.injEq, ManifestFile.document.injEq] at hm
        obtain ⟨origin, salt, rfl⟩ := hbuilt
        exact ⟨origin, salt, hm ▸ hdigest⟩
  · obtain ⟨-, -, heffect⟩ := attempted_some hanswer
    rw [show (exec sha256 .renameManifest w v).2 = v.manifestRenamed .all from heffect]
    exact ⟨c, hvb, hbuilt, _, htmp, hdigest⟩

variable [DecidableEq Digest]

/-- **The fast path** is taken for what the profile says, where no two files have one hash. -/
theorem within_cachedOk (hcollide : Function.Injective sha256) (hs : Sound sha256 s) :
    (cachedOk p).Within (effects sha256) (Sound sha256)
      (fun cached t => cached = true → Certified sha256 p t) s := by
  unfold cachedOk
  rw [within_bind]
  refine within_beside rfl hs fun x t loaded hplaced hload => ?_
  have ht := hs.of_placed hplaced
  cases loaded with
  | none => exact ⟨ht, fun h => absurd h Bool.false_ne_true⟩
  | some m =>
    have hmanifest : t.manifest = some (.document m) := by
      have hfound : (if x.fails = none then s.manifest.bind ManifestFile.manifest? else none) =
          some m :=
        Option.some.inj (congrArg Prod.fst hload)
      refine (congrArg Prod.snd hplaced).trans ?_
      split at hfound
      · obtain ⟨file, hfile, hm⟩ := Option.bind_eq_some_iff.mp hfound
        cases file with
        | unreadable => cases hm
        | document m' =>
          cases hm
          exact hfile
      · cases hfound
    rw [within_bind]
    refine within_beside rfl ht fun y u there hplaced' _ => ?_
    have hu := ht.of_placed hplaced'
    have hmanifest : u.manifest = some (.document m) := (congrArg Prod.snd hplaced').trans hmanifest
    cases there with
    | false => exact ⟨hu, fun h => absurd h Bool.false_ne_true⟩
    | true =>
      show Within _ _ _ (if _ then _ else _) u
      split
      · next hprofile =>
        obtain ⟨-, hcommit, hargs, -⟩ := hprofile
        rw [within_bind]
        refine within_beside rfl hu fun z v digest hplaced'' hhash => ?_
        have hv := hu.of_placed hplaced''
        refine ⟨hv, fun hequal => ?_⟩
        have hequal : m.binarySha256 = digest := of_decide_eq_true hequal
        have hhashed : hashed u z sha256 = (some digest, v) := hhash
        unfold hashed at hhashed
        cases hbinary : u.binary with
        | none =>
          rw [hbinary] at hhashed
          cases hhashed
        | some c =>
          rw [hbinary] at hhashed
          have hdigest := (exec_attempted hhashed).2.1
          -- the hash in the manifest is that of a build of the commit
          obtain ⟨origin, salt, hattested⟩ := hu.attested m hmanifest
          have hc : c = .build origin p.commitSha p.buildArgs salt := by
            refine hcollide ?_
            rw [← hdigest, ← hequal, hattested, hcommit, hargs]
          exact ⟨c, (congrArg Prod.fst hplaced'').trans hbinary, ⟨origin, salt, hc⟩, m,
            (congrArg Prod.snd hplaced'').trans hmanifest, hequal.trans hdigest⟩
      · exact ⟨hu, fun h => absurd h Bool.false_ne_true⟩

/-- **One call** of `bootstrap_profile`, wherever it ends. -/
theorem within_bootstrapProfile (hcollide : Function.Injective sha256) (hs : Sound sha256 s) :
    (bootstrapProfile p).Within (effects sha256) (Sound sha256)
      (fun _ t => Certified sha256 p t) s := by
  unfold bootstrapProfile
  rw [within_bind]
  refine (Within.keep (within_cachedOk hcollide hs)).conseq fun cached t ht => ?_
  obtain ⟨ht, hcached⟩ := ht
  cases cached with
  | true => exact ⟨ht, hcached rfl⟩
  | false =>
    rw [within_bind]
    refine (Within.keep (within_checkOut ht)).conseq fun _ u hu => ?_
    rw [within_bind]
    refine (Within.keep (within_build hu.1 hu.2)).conseq fun _ v hv => ?_
    obtain ⟨hv, c, hproduced, hbuilt⟩ := hv
    rw [within_bind]
    refine (Within.keep (within_install hv hproduced hbuilt)).conseq fun _ w hw => ?_
    exact within_record hw.1 hw.2 hbuilt

/-! ## What is returned -/

/-- The binary that is returned is a build of the commit the provenance names, with the arguments
it names, and the hash in the provenance, if there is one, is its hash. -/
def Truthful (sha256 : Content → Digest) (profiles : List GeneratorProfile) (name : String)
    (r : BinaryPath × Provenance Digest) (s : InstallDir Digest) : Prop :=
  ∃ p ∈ profiles, p.name = name ∧ ∃ c digest, s.binary = some c ∧ Built p c ∧
    r = (.ofProfile p.name, .built p.name p.repoUrl p.commitSha p.buildArgs digest) ∧
    ∀ d ∈ digest, d = sha256 c

variable {profiles : List GeneratorProfile} {name : String}

/-- **One call** of `resolve_bench_binary`, wherever it ends. -/
theorem within_resolveBenchBinary (hcollide : Function.Injective sha256) (hs : Sound sha256 s)
    (override : String) :
    (resolveBenchBinary profiles name override).Within (effects sha256) (Sound sha256)
      (fun r t => override = "" → Truthful sha256 profiles name r t) s := by
  unfold resolveBenchBinary
  split
  · unfold getProfile
    cases hfind : profiles.find? fun p => decide (p.name = name) with
    | none => exact hs
    | some p =>
      have hname : p.name = name := by simpa using List.find?_some hfind
      show Within _ _ _ (bootstrapProfile p >>= _) s
      rw [within_bind]
      refine (Within.keep (within_bootstrapProfile hcollide hs)).conseq fun _ t ht => ?_
      obtain ⟨ht, c, hbinary, hbuilt, m, hmanifest, hdigest⟩ := ht
      rw [within_bind]
      refine within_beside rfl ht fun x u loaded hplaced hload =>
        ⟨ht.of_placed hplaced, fun _ => ?_⟩
      refine ⟨p, List.mem_of_find?_eq_some hfind, hname, c, _,
        (congrArg Prod.fst hplaced).trans hbinary, hbuilt, rfl, fun d hd => ?_⟩
      -- the manifest is read once more, and cannot have changed
      obtain ⟨m', rfl, rfl⟩ := Option.map_eq_some_iff.mp hd
      have hfound : (if x.fails = none then t.manifest.bind ManifestFile.manifest? else none) =
          some m' :=
        Option.some.inj (congrArg Prod.fst hload)
      rw [hmanifest] at hfound
      split at hfound
      · cases hfound
        exact hdigest
      · cases hfound
  · next hgiven => exact ⟨hs, fun hempty => absurd hempty hgiven⟩

/-! ## Calls that follow one another -/

/-- The directories under `GENERATOR_DIR`. -/
abbrev Generators (Digest : Type) := String → InstallDir Digest

/-- A call, by a program that may have other profiles than the one before. -/
structure Request where
  profiles : List GeneratorProfile
  name     : String
  override : String

/-- A call that goes to its end, or is cut short. -/
def Step (sha256 : Content → Digest) (g : Generators Digest)
    (e : Request × Ending BootstrapError (BinaryPath × Provenance Digest))
    (g' : Generators Digest) : Prop :=
  ∃ d, Attempt (effects sha256) (resolveBenchBinary e.1.profiles e.1.name e.1.override)
    (g e.1.name) e.2 d ∧ g' = Function.update g e.1.name d

variable {g g' g'' : Generators Digest}
  {es : List (Request × Ending BootstrapError (BinaryPath × Provenance Digest))}

/-- One call keeps every directory sound. -/
theorem step_sound (hcollide : Function.Injective sha256)
    {e : Request × Ending BootstrapError (BinaryPath × Provenance Digest)}
    (hstep : Step sha256 g e g') (h : ∀ name, Sound sha256 (g name)) (name : String) :
    Sound sha256 (g' name) := by
  obtain ⟨d, hattempt, rfl⟩ := hstep
  have hd := ((within_resolveBenchBinary hcollide (h e.1.name) e.1.override).attempt hattempt).1
  by_cases hname : name = e.1.name
  · subst hname
    rw [Function.update_self]
    exact hd
  · rw [Function.update_of_ne hname]
    exact h name

/-- **The provenance is true**: after any calls, each for any profiles and cut short at any point
or with any command failing, every binary in place is a whole build, and a call for a profile
that returns gives one that was built from the commit and with the arguments its provenance
names. -/
theorem resolved_truthful (hcollide : Function.Injective sha256)
    (hstart : ∀ name, Sound sha256 (g name)) (hruns : Lib.Run (Step sha256) g es g')
    {r : BinaryPath × Provenance Digest}
    (hreturn : Step sha256 g' (⟨profiles, name, ""⟩, .returned r) g'') :
    (∀ name c, (g' name).binary = some c → c.Whole) ∧
      Truthful sha256 profiles name r (g'' name) := by
  have hsound : ∀ name, Sound sha256 (g' name) :=
    hruns.invariant (fun g => ∀ name, Sound sha256 (g name)) hstart fun _ _ _ hstep h name =>
      step_sound hcollide hstep h name
  obtain ⟨d, hattempt, rfl⟩ := hreturn
  rw [Function.update_self]
  refine ⟨fun name => (hsound name).whole, ?_⟩
  exact ((within_resolveBenchBinary hcollide (hsound name) "").attempt hattempt).2 r rfl rfl

end Commands

/-! ### A call that dies before the manifest -/

/-- Every command goes well. -/
def smooth : Luck := ⟨none, 0, "unstable"⟩

/-- Nothing was ever built, and the hash of a file is the file itself. -/
def untouched : Generators Content := fun _ => .empty

/-- The build of `scalable-v2`. -/
def scalableBuild : Content := .build scalableV2.repoUrl scalableV2.commitSha "" 0

/-- Its directory when the binary is in place and the manifest is not. -/
def interrupted : InstallDir Content :=
  ⟨some ⟨true, scalableV2.repoUrl, some scalableV2.commitSha, some scalableBuild⟩, none,
    some scalableBuild, none, none⟩

/-- The first call dies there; the second one does not take the binary, and builds again. -/
theorem resolved_truthful_after_death :
    ∃ left after r, Lib.Run (Step id) untouched [(⟨registry, "scalable-v2", ""⟩, .cut)] left ∧
      left "scalable-v2" = interrupted ∧
      Step id left (⟨registry, "scalable-v2", ""⟩, .returned r) after ∧
      (∀ name c, (left name).binary = some c → c.Whole) ∧
        Truthful id registry "scalable-v2" r (after "scalable-v2") := by
  -- the eleventh command is the rename of the binary
  have hcut : Attempt (effects id) (resolveBenchBinary registry "scalable-v2" "")
      (untouched "scalable-v2") .cut ((resolveBenchBinary registry "scalable-v2" "").after
        (effects id) smooth 11 (untouched "scalable-v2")) :=
    attempt_of_after smooth _ 11 _
  have hafter : (resolveBenchBinary registry "scalable-v2" "").after (effects id) smooth 11
      (untouched "scalable-v2") = interrupted := by decide +kernel
  rw [hafter] at hcut
  have hruns : Lib.Run (Step id) untouched [(⟨registry, "scalable-v2", ""⟩, .cut)]
      (Function.update untouched "scalable-v2" interrupted) := .single ⟨_, hcut, rfl⟩
  have hdir : Function.update untouched "scalable-v2" interrupted "scalable-v2" = interrupted :=
    Function.update_self ..
  have heval : ((resolveBenchBinary registry "scalable-v2" "").eval (effects id) smooth
      interrupted).1 = .ok (.ofProfile "scalable-v2", .built "scalable-v2" scalableV2.repoUrl
        scalableV2.commitSha "" (some scalableBuild)) := by decide +kernel
  have hreturn := attempt_of_eval smooth heval
  rw [← hdir] at hreturn
  have hstep : Step id (Function.update untouched "scalable-v2" interrupted)
      (⟨registry, "scalable-v2", ""⟩, .returned _) _ := ⟨_, hreturn, rfl⟩
  exact ⟨_, _, _, hruns, hdir, hstep,
    resolved_truthful Function.injective_id (fun _ => sound_empty) hruns hstep⟩

end Conductress.GeneratorProfiles
