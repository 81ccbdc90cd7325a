/-
Where the bytes of an artifact go (app/generations/storage.py): the keys
of the stored objects, the media types, and the two storages, each with
its streaming and its buffered way to store an artifact.

# Keys

`_new_key` writes tenant, job, kind, a random UUID and an extension into
one string, and `_validate_scoped_key` reads such a string back for a
given tenant and job. They are separate programs: the first concatenates,
the second splits at the slashes and matches a regular expression.

# Bytes

`transfer_remote` has the artifact as chunks, cut wherever the network
cut them, and `put_bytes` has it whole. `hashlib.sha256` is a parameter,
and so is whether the disk or the bucket takes the object in the end.
The request for a remote asset and the answers it can get before the
first chunk are left out, and so are the metrics.
-/
import Mosaic.Generation.Store
import Mosaic.Lib.Checked
import Mosaic.Lib.Pattern
import Mosaic.Lib.PyStr
import Mosaic.Lib.Uuid

namespace Mosaic.Generation

open Lib

inductive StorageError
  | infrastructure (code : String)
  | valueError (message : String)
  | keyError (key : String)
deriving Repr, DecidableEq

/-- `uuid.UUID`. -/
structure UUID where
  int : Nat
  bound : int < 2 ^ 128

theorem UUID.int_inj {u v : UUID} : u.int = v.int ↔ u = v := by
  cases u
  cases v
  simp

instance : DecidableEq UUID := fun _ _ => decidable_of_iff _ UUID.int_inj

-- three of them, for samples
theorem UUID.one_bound : 1 < 2 ^ 128 := by decide
theorem UUID.two_bound : 2 < 2 ^ 128 := by decide
theorem UUID.three_bound : 3 < 2 ^ 128 := by decide

/-- `UUID.__str__`. -/
def UUID.str (u : UUID) : String := Uuid.text u.int

def UUID.hex (u : UUID) : String := String.ofList (Uuid.hex u.int)

-- ================================================================ tables

/-- `_ARTIFACT_KINDS`. -/
def storedArtifactKinds : List String := ["input", "output", "thumbnail", "preview"]

/-- `_MIME_EXTENSIONS`. -/
def mimeExtensions : List (String × String) :=
  [("image/png", ".png"), ("image/jpeg", ".jpg"), ("image/webp", ".webp"),
   ("video/mp4", ".mp4"), ("audio/wav", ".wav"), ("audio/mpeg", ".mp3"),
   ("audio/ogg", ".ogg")]

def lowerLetter (c : Char) : Bool := 'a' ≤ c && c ≤ 'z'

def digit (c : Char) : Bool := '0' ≤ c && c ≤ '9'

def hexDigit (c : Char) : Bool := digit c || ('a' ≤ c && c ≤ 'f')

def kindChar (c : Char) : Bool := lowerLetter c || digit c || c == '_' || c == '-'

/-- A character that stands for itself. -/
def only (x : Char) : Pattern.Item := ⟨(· == x), 1, some 1⟩

/-- `_KIND_RE`. -/
def kindRe : List Pattern.Item := [⟨lowerLetter, 1, some 1⟩, ⟨kindChar, 0, some 31⟩]

/-- `_KEY_NAME_RE`. -/
def keyNameRe : List Pattern.Item :=
  kindRe ++ [only '-', ⟨hexDigit, 32, some 32⟩, only '.',
    ⟨fun c => lowerLetter c || digit c, 1, none⟩]

/-- The groups of `_KEY_NAME_RE`. -/
structure KeyName where
  kind : List Char
  nonce : List Char
  extension : List Char
deriving Repr, DecidableEq

/-- `_KEY_NAME_RE.fullmatch`. -/
def keyName (s : List Char) : Option KeyName :=
  match Pattern.fullmatch keyNameRe s with
  | some [first, more, _, nonce, dot, extension] =>
      some { kind := first ++ more, nonce, extension := dot ++ extension }
  | _ => none

-- ================================================================== keys

/-- `_new_key`, with the UUID it draws. -/
def newKey (tenantId jobId : UUID) (kind mimeType : String) (nonce : UUID) :
    Except StorageError String := do
  raiseIf (Pattern.fullmatch kindRe kind.toList = none ∨ kind ∉ storedArtifactKinds)
    (.valueError "invalid artifact kind")
  let extension ← orRaise (mimeExtensions.lookup mimeType) (.keyError mimeType)
  return tenantId.str ++ "/" ++ jobId.str ++ "/" ++ kind ++ "-" ++ nonce.hex ++ extension

/-- `_validate_scoped_key`. -/
def validateScopedKey (tenantId jobId : UUID) (objectKey : String) :
    Except StorageError String := do
  let expectedPrefix := tenantId.str ++ "/" ++ jobId.str ++ "/"
  raiseIf (¬ expectedPrefix.toList <+: objectKey.toList)
    (.infrastructure "GENERATION_ARTIFACT_KEY_INVALID")
  let parts := objectKey.toList.splitOn '/'
  raiseIf (parts.length ≠ 3 ∨ parts.take 2 ≠ [tenantId.str.toList, jobId.str.toList])
    (.infrastructure "GENERATION_ARTIFACT_KEY_INVALID")
  let groups ← orRaise ((keyName (parts.getD 2 [])).filter fun g =>
      storedArtifactKinds.any (·.toList == g.kind))
    (.infrastructure "GENERATION_ARTIFACT_KEY_INVALID")
  raiseIf ((mimeExtensions.map (·.2.toList)).contains groups.extension = false)
    (.infrastructure "GENERATION_ARTIFACT_KEY_INVALID")
  return objectKey

-- =========================================================== media types

/-- `_validate_mime`. -/
def validateMime (value : String) : Except StorageError String := do
  let normalized := PyStr.lower (PyStr.strip value)
  raiseIf (normalized ∉ mimeExtensions.map (·.1)) (.valueError "unsupported artifact mime type")
  return normalized

abbrev Bytes := List UInt8

/-- The code points of an ASCII literal. -/
def ascii (s : String) : Bytes := s.toList.map fun c => UInt8.ofNat c.toNat

/-- `_magic_matches`. -/
def magicMatches (mimeType : String) (start : Bytes) : Bool :=
  if mimeType = "image/png" then
    ([0x89, 0x50, 0x4E, 0x47, 0x0D, 0x0A, 0x1A, 0x0A] : Bytes).isPrefixOf start
  else if mimeType = "image/jpeg" then ([0xFF, 0xD8, 0xFF] : Bytes).isPrefixOf start
  else if mimeType = "image/webp" then
    12 ≤ start.length && start.take 4 == ascii "RIFF"
      && (start.drop 8).take 4 == ascii "WEBP"
  else if mimeType = "video/mp4" then
    12 ≤ start.length && (start.drop 4).take 4 == ascii "ftyp"
  else if mimeType = "audio/wav" then
    12 ≤ start.length && start.take 4 == ascii "RIFF"
      && (start.drop 8).take 4 == ascii "WAVE"
  else if mimeType = "audio/mpeg" then
    (ascii "ID3").isPrefixOf start
      || (match start with
          | a :: b :: _ => a == 0xFF && b &&& 0xE0 == 0xE0
          | _ => false)
  else if mimeType = "audio/ogg" then (ascii "OggS").isPrefixOf start
  else false

-- ================================================================ chunks

/-- `hashlib.sha256`: its state, what `update` does to it, the digest. -/
structure Sha256 where
  State : Type
  init : State
  update : State → Bytes → State
  hexdigest : State → String

/-- `hashlib.sha256(content).hexdigest()`. -/
def Sha256.of (sha : Sha256) (content : Bytes) : String :=
  sha.hexdigest (sha.update sha.init content)

/-- `_MAGIC_PREFIX_BYTES`. -/
def magicPrefixBytes : Nat := 32

/-- The locals of `_consume_chunks`, and what the handle holds. -/
structure Consumer (sha : Sha256) where
  digest : sha.State
  start : Bytes
  total : Nat
  written : Bytes

/-- Before the first chunk. -/
def Consumer.fresh (sha : Sha256) : Consumer sha :=
  { digest := sha.init, start := [], total := 0, written := [] }

/-- One turn of the loop of `_consume_chunks`. -/
def Consumer.take {sha : Sha256} (c : Consumer sha) (maxBytes : Nat) (chunk : Bytes) :
    Except StorageError (Consumer sha) := do
  let total := c.total + chunk.length
  raiseIf (maxBytes < total) (.infrastructure "GENERATION_ARTIFACT_TOO_LARGE")
  let start :=
    if c.start.length < magicPrefixBytes then
      c.start ++ chunk.take (magicPrefixBytes - c.start.length)
    else c.start
  return { digest := sha.update c.digest chunk, start, total, written := c.written ++ chunk }

/-- What `_consume_chunks` returns, with the bytes the handle was given. -/
structure Consumed where
  total : Nat
  digest : String
  written : Bytes
deriving Repr, DecidableEq

/-- `_consume_chunks`. -/
def consumeChunks (sha : Sha256) (mimeType : String) (maxBytes : Nat)
    (chunks : List Bytes) : Except StorageError Consumed := do
  let c ← chunks.foldlM (fun c chunk => c.take maxBytes chunk) (Consumer.fresh sha)
  raiseIf (magicMatches mimeType c.start = false)
    (.infrastructure "GENERATION_ARTIFACT_MIME_MISMATCH")
  return { total := c.total, digest := sha.hexdigest c.digest, written := c.written }

-- ============================================================== storages

/-- The stored objects by key. -/
abbrev Objects := List (String × Bytes)

/-- `os.replace` or `put_object`, whichever the storage ends with. -/
def Objects.put (objects : Objects) (key : String) (content : Bytes) : Objects :=
  (key, content) :: objects.filter (·.1 != key)

/-- What a storage is configured with, and whether it takes the object:
otherwise the last step raises an `OSError` or a client error. -/
structure Storage where
  sha : Sha256
  maxBytes : Nat
  available : Bool

/-- What a call is about, with the UUID its key will get. -/
structure ArtifactCall where
  tenantId : UUID
  jobId : UUID
  kind : String
  mimeType : String
  nonce : UUID

/-- A stored artifact, without an expiry. -/
def storedArtifact (provider key mimeType : String) (size : Nat) (digest : String) :
    StoredArtifact :=
  { storageProvider := provider, objectKey := key, mimeType, sizeBytes := size
    sha256 := some digest, expiresAt := none }

/-- `put_bytes` up to the storing: media type, size, magic bytes, key. -/
def admitBytes (st : Storage) (c : ArtifactCall) (content : Bytes) :
    Except StorageError (String × String) := do
  let expectedMime ← validateMime c.mimeType
  raiseIf (st.maxBytes < content.length) (.infrastructure "GENERATION_ARTIFACT_TOO_LARGE")
  raiseIf (magicMatches expectedMime (content.take magicPrefixBytes) = false)
    (.infrastructure "GENERATION_ARTIFACT_MIME_MISMATCH")
  let targetKey ← newKey c.tenantId c.jobId c.kind expectedMime c.nonce
  return (expectedMime, targetKey)

namespace LocalArtifactStorage

/-- `resolve_object_path`: the path below the root, which no link leaves. -/
def resolveObjectPath (objectKey : String) : Except StorageError String := do
  let key := objectKey.toList
  raiseIf (PyStr.blank objectKey = true ∨ key.head? = some '/'
    ∨ (key.splitOn '/').contains ['.', '.'] = true)
    (.infrastructure "GENERATION_ARTIFACT_KEY_INVALID")
  return objectKey

/-- `_write_stream`. -/
def writeStream (st : Storage) (targetKey mimeType : String) (chunks : List Bytes)
    (objects : Objects) : Except StorageError (StoredArtifact × Objects) := do
  let r ← consumeChunks st.sha mimeType st.maxBytes chunks
  raiseIf (st.available = false) (.infrastructure "GENERATION_ARTIFACT_WRITE_FAILED")
  return (storedArtifact "local_fs" targetKey mimeType r.total r.digest,
    objects.put targetKey r.written)

/-- `transfer_remote`, of the chunks that come. -/
def transferRemote (st : Storage) (c : ArtifactCall) (chunks : List Bytes)
    (objects : Objects) : Except StorageError (StoredArtifact × Objects) := do
  let expectedMime ← validateMime c.mimeType
  let targetKey ← newKey c.tenantId c.jobId c.kind expectedMime c.nonce
  let _ ← resolveObjectPath targetKey
  writeStream st targetKey expectedMime chunks objects

/-- `put_bytes`. -/
def putBytes (st : Storage) (c : ArtifactCall) (content : Bytes) (objects : Objects) :
    Except StorageError (StoredArtifact × Objects) := do
  let (expectedMime, targetKey) ← admitBytes st c content
  let _ ← resolveObjectPath targetKey
  writeStream st targetKey expectedMime [content] objects

/-- `delete_object`: a file that is not there is no error. -/
def deleteObject (st : Storage) (tenantId jobId : UUID) (objectKey : String)
    (objects : Objects) : Except StorageError Objects := do
  let scopedKey ← validateScopedKey tenantId jobId objectKey
  let path ← resolveObjectPath scopedKey
  raiseIf (st.available = false) (.infrastructure "GENERATION_ARTIFACT_DELETE_FAILED")
  return objects.filter (·.1 != path)

end LocalArtifactStorage

namespace S3ArtifactStorage

/-- `transfer_remote`, of the chunks that come. -/
def transferRemote (st : Storage) (c : ArtifactCall) (chunks : List Bytes)
    (objects : Objects) : Except StorageError (StoredArtifact × Objects) := do
  let expectedMime ← validateMime c.mimeType
  let targetKey ← newKey c.tenantId c.jobId c.kind expectedMime c.nonce
  let r ← consumeChunks st.sha expectedMime st.maxBytes chunks
  raiseIf (st.available = false) (.infrastructure "GENERATION_ARTIFACT_WRITE_FAILED")
  return (storedArtifact "s3" targetKey expectedMime r.total r.digest,
    objects.put targetKey r.written)

/-- `put_bytes`. -/
def putBytes (st : Storage) (c : ArtifactCall) (content : Bytes) (objects : Objects) :
    Except StorageError (StoredArtifact × Objects) := do
  let (expectedMime, targetKey) ← admitBytes st c content
  let digest := st.sha.of content
  raiseIf (st.available = false) (.infrastructure "GENERATION_ARTIFACT_WRITE_FAILED")
  return (storedArtifact "s3" targetKey expectedMime content.length digest,
    objects.put targetKey content)

/-- `delete_object`: an object that is not there is no error. -/
def deleteObject (st : Storage) (tenantId jobId : UUID) (objectKey : String)
    (objects : Objects) : Except StorageError Objects := do
  let scopedKey ← validateScopedKey tenantId jobId objectKey
  raiseIf (st.available = false) (.infrastructure "GENERATION_ARTIFACT_DELETE_FAILED")
  return objects.filter (·.1 != scopedKey)

end S3ArtifactStorage

end Mosaic.Generation
