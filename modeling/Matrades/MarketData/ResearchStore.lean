import Matrades.Base.Publish
import Matrades.Shared.DomainTypes

/-!
# The research archive

`ResearchDataStore` of `modules/market_data/research_store.py`: files under an owner, a layer, the SHA-256 of
their contents and an extension. `put` writes a temporary file and links it, so jobs of several workers may
put at the same time and stop anywhere; the steps of a `put` are those of a writer of `Base/Publish`. `get`
checks the reference and the digest of what it reads. `digest` is `sha256(payload).hexdigest()`.
-/

namespace Matrades

open Base

def archiveLayers : List String := ["raw", "normalized", "features", "experiments"]

def archiveExtensions : List String := ["json", "bi5", "parquet"]

/-- A `put` of an owner that passes the checks of its arguments. -/
structure ArchivePut where
  ownerId : Uuid
  payload : List UInt8
  layer : String
  extension : String
  layerOk : layer ∈ archiveLayers
  extensionOk : extension ∈ archiveExtensions

structure ArchiveReference where
  layer : String
  checksum : String
  extension : String
  bytes : ℕ
  deriving DecidableEq, Repr

inductive ArchiveError
  | valueError (message : String)
  | fileNotFound
  deriving DecidableEq, Repr

/-- The checks of `put`. -/
def archivePut (ownerId : Uuid) (payload : List UInt8) (layer extension : String) :
    Except ArchiveError ArchivePut :=
  if hlayer : layer ∈ archiveLayers then
    if hextension : extension ∈ archiveExtensions then
      .ok ⟨ownerId, payload, layer, extension, hlayer, hextension⟩
    else .error (.valueError "unsupported archive format")
  else .error (.valueError "unsupported research archive layer")

/-- `root / owner / layer / f"{checksum}.{extension}"` -/
abbrev ArchivePath := Uuid × String × String × String

section
variable (digest : List UInt8 → String)

def ArchivePut.path (p : ArchivePut) : ArchivePath := (p.ownerId, p.layer, digest p.payload, p.extension)

/-- What `put` returns. -/
def ArchivePut.reference (p : ArchivePut) : ArchiveReference where
  layer := p.layer
  checksum := digest p.payload
  extension := p.extension
  bytes := p.payload.length

abbrev ArchiveState := Publish.Directory ArchivePut ArchivePath UInt8

/-- One step of a `put`: of writer `w`, in any order with the steps of others. -/
def archiveStep (d : ArchiveState) (e : Publish.Event ArchivePut) : ArchiveState :=
  Publish.step (ArchivePut.path digest) ArchivePut.payload d e

/-- Is the text 64 hexadecimal digits? -/
def validChecksum (checksum : String) : Bool :=
  checksum.toList.length = 64 && checksum.toList.all fun c => c ∈ "0123456789abcdef".toList

/-- `get` of an owner's store -/
def archiveGet (d : ArchiveState) (ownerId : Uuid) (reference : ArchiveReference) :
    Except ArchiveError (List UInt8) :=
  if !validChecksum reference.checksum then .error (.valueError "invalid archive checksum")
  else if reference.layer ∉ archiveLayers ∨ reference.extension ∉ archiveExtensions then
    .error (.valueError "invalid archive reference")
  else
    match Publish.file d (ownerId, reference.layer, reference.checksum, reference.extension) with
    | none => .error .fileNotFound
    | some payload =>
      if digest payload ≠ reference.checksum then
        .error (.valueError "research archive integrity failure")
      else .ok payload

variable {digest}

/-- Every file of a sound archive is the whole payload of a `put` to its path. -/
theorem put_of_file {d : ArchiveState} (h : Publish.Sound (ArchivePut.path digest) ArchivePut.payload d)
    {path : ArchivePath} {bytes : List UInt8} (hfile : Publish.file d path = some bytes) :
    ∃ p ∈ d.jobs, p.path digest = path ∧ p.payload = bytes := by
  obtain ⟨inode, htarget, rfl⟩ := Option.map_eq_some_iff.1 hfile
  obtain ⟨-, p, hp, hpath, hpayload⟩ := h.published path inode htarget
  exact ⟨p, hp, hpath, hpayload.symm⟩

/-- A `put` that is done has a file at its path. -/
theorem file_of_done {d : ArchiveState} (h : Publish.Sound (ArchivePut.path digest) ArchivePut.payload d)
    {w : ℕ} {p : ArchivePut} (hdone : d.writers w = some (p, .done)) :
    ∃ q ∈ d.jobs, q.path digest = p.path digest ∧ Publish.file d (p.path digest) = some q.payload := by
  obtain ⟨inode, htarget⟩ := Option.isSome_iff_exists.1 (h.done w p hdone)
  obtain ⟨-, q, hq, hpath, hpayload⟩ := h.published _ inode htarget
  refine ⟨q, hq, hpath, Option.map_eq_some_iff.2 ⟨inode, htarget, hpayload⟩⟩

/-- A file at the path of a reference is returned. -/
theorem archiveGet_of_file {d : ArchiveState} {p : ArchivePut} {bytes : List UInt8}
    (hhex : validChecksum (digest p.payload) = true) (hdigest : digest bytes = digest p.payload)
    (hfile : Publish.file d (p.path digest) = some bytes) :
    archiveGet digest d p.ownerId (p.reference digest) = .ok bytes := by
  have hknown : ¬((p.reference digest).layer ∉ archiveLayers ∨
      (p.reference digest).extension ∉ archiveExtensions) :=
    not_or.2 ⟨not_not.2 p.layerOk, not_not.2 p.extensionOk⟩
  have hchecksum : validChecksum (p.reference digest).checksum = true := hhex
  have hread : Publish.file d (p.ownerId, (p.reference digest).layer, (p.reference digest).checksum,
      (p.reference digest).extension) = some bytes := hfile
  unfold archiveGet
  rw [hchecksum, if_neg (by simp), if_neg hknown, hread]
  exact if_neg (not_not.2 hdigest)

/-- What `get` can do with a file: return it, or find that its digest is another. -/
theorem file_of_archiveGet {d : ArchiveState} {ownerId : Uuid} {reference : ArchiveReference}
    {result : Except ArchiveError (List UInt8)} (hget : archiveGet digest d ownerId reference = result) :
    (∃ bytes, result = .ok bytes ∧ digest bytes = reference.checksum ∧
      Publish.file d (ownerId, reference.layer, reference.checksum, reference.extension) = some bytes) ∨
    result ≠ .error (.valueError "research archive integrity failure") ∧ (∀ bytes, result ≠ .ok bytes) ∨
    ∃ bytes, digest bytes ≠ reference.checksum ∧
      Publish.file d (ownerId, reference.layer, reference.checksum, reference.extension) = some bytes := by
  subst hget
  unfold archiveGet
  split
  next =>
    refine .inr (.inl ⟨fun h => ?_, fun _ h => by cases h⟩)
    exact absurd (Except.error.inj h) (by decide)
  next =>
    split
    next =>
      refine .inr (.inl ⟨fun h => ?_, fun _ h => by cases h⟩)
      exact absurd (Except.error.inj h) (by decide)
    next =>
      split
      next =>
        refine .inr (.inl ⟨fun h => ?_, fun _ h => by cases h⟩)
        exact absurd (Except.error.inj h) (by decide)
      next payload hfile =>
        split
        next hdigest => exact .inr (.inr ⟨payload, hdigest, hfile⟩)
        next hdigest => exact .inl ⟨payload, rfl, not_not.1 hdigest, hfile⟩

/-- **What was put is read back, whatever happens in between.** However the steps of any number of `put`s,
failures and crashes are mixed, a `put` that has returned its reference can be read back at any later time,
byte for byte, provided no two payloads put share a digest; whatever an owner reads was put by this owner, in
full, under the checksum asked for; and the check of the digest never fails. -/
theorem archive_reads_back {before after : List (Publish.Event ArchivePut)}
    (hhex : ∀ payload, validChecksum (digest payload) = true)
    (hdistinct : ∀ p ∈ (run (archiveStep digest) {} (before ++ after)).jobs,
      ∀ q ∈ (run (archiveStep digest) {} (before ++ after)).jobs,
        digest p.payload = digest q.payload → p.payload = q.payload) :
    let now := run (archiveStep digest) {} before
    let later := run (archiveStep digest) {} (before ++ after)
    (∀ w p, now.writers w = some (p, .done) →
      archiveGet digest later p.ownerId (p.reference digest) = .ok p.payload) ∧
    (∀ ownerId reference bytes, archiveGet digest later ownerId reference = .ok bytes →
      ∃ p ∈ later.jobs, p.ownerId = ownerId ∧ p.payload = bytes ∧ digest bytes = reference.checksum) ∧
    ∀ ownerId reference, archiveGet digest later ownerId reference ≠
      .error (.valueError "research archive integrity failure") := by
  intro now later
  have hnow : Publish.Sound (ArchivePut.path digest) ArchivePut.payload now :=
    Publish.sound_run Publish.Sound.initial
  have hlater : Publish.Sound (ArchivePut.path digest) ArchivePut.payload later :=
    Publish.sound_run Publish.Sound.initial
  have hlaterEq : later = run (archiveStep digest) now after := run_append _ _ _
  refine ⟨fun w p hdone => ?_, fun ownerId reference bytes hget => ?_, fun ownerId reference hget => ?_⟩
  · obtain ⟨q, hq, hpath, hfile⟩ := file_of_done hnow hdone
    have hlaterFile : Publish.file later (p.path digest) = some q.payload := by
      rw [hlaterEq]
      exact Publish.kept_run hnow hfile
    have hdigest : digest q.payload = digest p.payload := congrArg (fun path => path.2.2.1) hpath
    have hjobs : ∀ j ∈ now.jobs, j ∈ later.jobs := by
      intro j hj
      rw [hlaterEq]
      exact Publish.mem_jobs_run hj
    have hsame : q.payload = p.payload :=
      hdistinct q (hjobs q hq) p (hjobs p (hnow.begun w p .done hdone)) hdigest
    rw [hsame] at hlaterFile
    exact archiveGet_of_file (hhex _) rfl hlaterFile
  · rcases file_of_archiveGet hget with ⟨_, heq, hdigest, hfile⟩ | ⟨-, hno⟩ | ⟨other, hdigest, hfile⟩
    · cases heq
      obtain ⟨p, hp, hpath, hpayload⟩ := put_of_file hlater hfile
      exact ⟨p, hp, congrArg Prod.fst hpath, hpayload, hdigest⟩
    · exact absurd rfl (hno bytes)
    · obtain ⟨p, -, hpath, hpayload⟩ := put_of_file hlater hfile
      have hchecksum : digest p.payload = reference.checksum := congrArg (fun path => path.2.2.1) hpath
      exact absurd (hpayload ▸ hchecksum) hdigest
  · rcases file_of_archiveGet hget with ⟨_, heq, -⟩ | ⟨hno, -⟩ | ⟨other, hdigest, hfile⟩
    · cases heq
    · exact hno rfl
    · obtain ⟨p, -, hpath, hpayload⟩ := put_of_file hlater hfile
      have hchecksum : digest p.payload = reference.checksum := congrArg (fun path => path.2.2.1) hpath
      exact hdigest (hpayload ▸ hchecksum)

end

/-! ## Two workers with one payload -/

/-- SHA-256 on the payload `01 02 03`. -/
def someDigest (payload : List UInt8) : String :=
  if payload = [1, 2, 3] then "039058c6f2c0cb492c533b0a4d14ef77cc0f78abccced5287d84a1a2011cfb81"
  else "e3b0c44298fc1c149afbf4c8996fb92427ae41e4649b934ca495991b7852b855"

theorem raw_known : "raw" ∈ archiveLayers := by decide

theorem json_known : "json" ∈ archiveExtensions := by decide

def rawPut : ArchivePut where
  ownerId := Uuid.ofNat 1
  payload := [1, 2, 3]
  layer := "raw"
  extension := "json"
  layerOk := raw_known
  extensionOk := json_known

/-- One job is interrupted while it writes, and another puts the payload. -/
def interrupted : List (Publish.Event ArchivePut) :=
  [.begin 0 rawPut, .check 0, .begin 1 rawPut, .check 1, .begin 2 rawPut, .check 2, .write 0 1, .write 1 3,
    .close 1, .link 1]

/-- The first job is gone, and a third one finds the name taken. -/
def resumed : List (Publish.Event ArchivePut) := [.crash 0, .write 2 2, .write 2 2, .close 2, .link 2]

theorem interrupted_reads_back :
    archiveGet someDigest (run (archiveStep someDigest) {} (interrupted ++ resumed)) rawPut.ownerId
      (rawPut.reference someDigest) = .ok [1, 2, 3] := by
  have hhex : ∀ payload, validChecksum (someDigest payload) = true := by
    intro payload
    unfold someDigest
    split <;> decide
  have hjobs : (run (archiveStep someDigest) {} (interrupted ++ resumed)).jobs =
      [rawPut, rawPut, rawPut] := rfl
  have hdone : (run (archiveStep someDigest) {} interrupted).writers 1 = some (rawPut, .done) := rfl
  refine (archive_reads_back hhex fun p hp q hq _ => ?_).1 1 rawPut hdone
  have hraw : ∀ r ∈ [rawPut, rawPut, rawPut], r = rawPut := by simp
  rw [hjobs] at hp hq
  rw [hraw p hp, hraw q hq]

end Matrades
