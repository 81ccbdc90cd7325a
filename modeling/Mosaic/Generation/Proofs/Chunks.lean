/-
Streaming and buffered storage of an artifact come to the same.

# The state of the loop

`Consumer.Holds` says what the locals of `_consume_chunks` are after any
number of chunks, in terms of the bytes so far: their number, their first
32, their digest. Nothing in it depends on how they were cut, and each
turn of the loop keeps it (`take_eq_ok_iff`), so the result of a run is a
function of the concatenation (`consumeChunks_eq_ok_iff`), and so is
whether there is one: the size only grows, hence some turn finds it too
large exactly when it is too large in the end.
-/
import Mosaic.Generation.Proofs.Keys

namespace Mosaic.Generation

open Lib

variable {sha : Sha256} {c c' : Consumer sha} {content chunk : Bytes} {maxBytes : Nat}

-- ================================================================ digest

/-- Calls of `update` amount to one call with the concatenation. -/
structure Sha256.Compositional (sha : Sha256) : Prop where
  empty : ∀ x, sha.update x [] = x
  append : ∀ x a b, sha.update (sha.update x a) b = sha.update x (a ++ b)

-- ================================================================== loop

/-- The locals of the loop after `content`. -/
structure Consumer.Holds (c : Consumer sha) (content : Bytes) : Prop where
  digest : c.digest = sha.update sha.init content
  start : c.start = content.take magicPrefixBytes
  total : c.total = content.length
  written : c.written = content

theorem Consumer.fresh_holds (hsha : sha.Compositional) : (Consumer.fresh sha).Holds [] :=
  ⟨(hsha.empty _).symm, rfl, rfl, rfl⟩

/-- The first 32 bytes, kept up to date. -/
theorem take_append_start (content chunk : Bytes) :
    (if (content.take magicPrefixBytes).length < magicPrefixBytes then
        content.take magicPrefixBytes
          ++ chunk.take (magicPrefixBytes - (content.take magicPrefixBytes).length)
      else content.take magicPrefixBytes)
      = (content ++ chunk).take magicPrefixBytes := by
  rw [List.length_take, List.take_append]
  by_cases hshort : content.length < magicPrefixBytes
  · rw [if_pos (by omega), Nat.min_eq_right (by omega)]
  · have hnone : chunk.take (magicPrefixBytes - content.length) = [] := by
      rw [show magicPrefixBytes - content.length = 0 by omega, List.take_zero]
    rw [if_neg (by omega), hnone, List.append_nil]

/-- A turn of the loop goes on exactly while the bytes so far fit. -/
theorem Consumer.Holds.take_eq_ok_iff (hsha : sha.Compositional) (h : c.Holds content) :
    c.take maxBytes chunk = .ok c'
      ↔ (content ++ chunk).length ≤ maxBytes ∧ c'.Holds (content ++ chunk) := by
  have hstart := take_append_start content chunk
  rw [← h.start] at hstart
  unfold Consumer.take
  simp only [bind_eq_ok, raiseIf_eq_ok, pure_eq_ok, not_lt, h.total, List.length_append]
  constructor
  · rintro ⟨_, hfits, rfl⟩
    refine ⟨hfits, ?_, hstart, ?_, ?_⟩
    · rw [h.digest, hsha.append]
    · rw [List.length_append]
    · rw [h.written]
  · rintro ⟨hfits, h'⟩
    refine ⟨(), hfits, ?_⟩
    cases c' with
    | mk digest' start' total' written' =>
        obtain ⟨hdigest, hstart', htotal, hwritten⟩ := h'
        simp only at hdigest hstart' htotal hwritten
        rw [hdigest, hstart', htotal, hwritten, ← hstart, h.digest, hsha.append, h.written,
          List.length_append]

/-- The loop ends exactly when all bytes fit, and knows them all. -/
theorem Consumer.Holds.run_eq_ok_iff (hsha : sha.Compositional) {chunks : List Bytes}
    (h : c.Holds content) (hfits : content.length ≤ maxBytes) :
    chunks.foldlM (fun c chunk => c.take maxBytes chunk) c = .ok c'
      ↔ (content ++ chunks.flatten).length ≤ maxBytes
        ∧ c'.Holds (content ++ chunks.flatten) := by
  induction chunks generalizing c content with
  | nil =>
      simp only [List.foldlM_nil, pure_eq_ok, List.flatten_nil, List.append_nil]
      constructor
      · rintro rfl
        exact ⟨hfits, h⟩
      · rintro ⟨-, h'⟩
        cases c with
        | mk digest start total written =>
            cases c' with
            | mk digest' start' total' written' =>
                obtain ⟨hd, hs, ht, hw⟩ := h
                obtain ⟨hd', hs', ht', hw'⟩ := h'
                simp only at hd hs ht hw hd' hs' ht' hw'
                rw [hd, hs, ht, hw, hd', hs', ht', hw']
  | cons chunk chunks ih =>
      rw [List.foldlM_cons, bind_eq_ok, List.flatten_cons, ← List.append_assoc]
      constructor
      · rintro ⟨d, htake, hrun⟩
        obtain ⟨hfits', hd⟩ := (h.take_eq_ok_iff hsha).mp htake
        exact (ih hd hfits').mp hrun
      · rintro ⟨hall, h'⟩
        have hfits' : (content ++ chunk).length ≤ maxBytes := by
          rw [List.length_append] at hall
          omega
        have hd : (⟨sha.update sha.init (content ++ chunk),
            (content ++ chunk).take magicPrefixBytes, (content ++ chunk).length,
            content ++ chunk⟩ : Consumer sha).Holds (content ++ chunk) := ⟨rfl, rfl, rfl, rfl⟩
        exact ⟨_, (h.take_eq_ok_iff hsha).mpr ⟨hfits', hd⟩, (ih hd hfits').mpr ⟨hall, h'⟩⟩

/-- What consuming chunks comes to, in terms of all their bytes. -/
theorem consumeChunks_eq_ok_iff (hsha : sha.Compositional) {mimeType : String}
    {chunks : List Bytes} {r : Consumed} :
    consumeChunks sha mimeType maxBytes chunks = .ok r
      ↔ chunks.flatten.length ≤ maxBytes
        ∧ magicMatches mimeType (chunks.flatten.take magicPrefixBytes) = true
        ∧ r = ⟨chunks.flatten.length, sha.of chunks.flatten, chunks.flatten⟩ := by
  have hrun : ∀ c', chunks.foldlM (fun c chunk => c.take maxBytes chunk) (Consumer.fresh sha)
      = .ok c' ↔ chunks.flatten.length ≤ maxBytes ∧ c'.Holds chunks.flatten :=
    fun _ => (Consumer.fresh_holds hsha).run_eq_ok_iff hsha (Nat.zero_le maxBytes)
  unfold consumeChunks
  simp only [bind_eq_ok, raiseIf_eq_ok, pure_eq_ok, hrun, Bool.not_eq_false]
  constructor
  · rintro ⟨c, ⟨hfits, hc⟩, _, hmagic, rfl⟩
    rw [hc.start] at hmagic
    refine ⟨hfits, hmagic, ?_⟩
    rw [hc.total, hc.digest, hc.written]
    rfl
  · rintro ⟨hfits, hmagic, rfl⟩
    exact ⟨⟨sha.update sha.init chunks.flatten, chunks.flatten.take magicPrefixBytes,
      chunks.flatten.length, chunks.flatten⟩, ⟨hfits, rfl, rfl, rfl, rfl⟩, (), hmagic, rfl⟩

-- ============================================================== storages

variable {st : Storage} {call : ArtifactCall} {objects : Objects}
  {r : StoredArtifact × Objects}

theorem admitBytes_eq_ok_iff {m key : String} :
    admitBytes st call content = .ok (m, key)
      ↔ validateMime call.mimeType = .ok m ∧ content.length ≤ st.maxBytes
        ∧ magicMatches m (content.take magicPrefixBytes) = true
        ∧ newKey call.tenantId call.jobId call.kind m call.nonce = .ok key := by
  unfold admitBytes
  simp only [bind_eq_ok, raiseIf_eq_ok, pure_eq_ok, not_lt, Bool.not_eq_false, Prod.mk.injEq]
  constructor
  · rintro ⟨_, hmime, _, hfits, _, hmagic, _, hkey, rfl, rfl⟩
    exact ⟨hmime, hfits, hmagic, hkey⟩
  · rintro ⟨hmime, hfits, hmagic, hkey⟩
    exact ⟨m, hmime, (), hfits, (), hmagic, key, hkey, rfl, rfl⟩

namespace LocalArtifactStorage

/-- What a stream leaves behind, in terms of all its bytes. -/
theorem writeStream_eq_ok_iff (hsha : st.sha.Compositional) {m key : String}
    {chunks : List Bytes} :
    writeStream st key m chunks objects = .ok r
      ↔ chunks.flatten.length ≤ st.maxBytes
        ∧ magicMatches m (chunks.flatten.take magicPrefixBytes) = true
        ∧ st.available = true
        ∧ r = (storedArtifact "local_fs" key m chunks.flatten.length
                (st.sha.of chunks.flatten), objects.put key chunks.flatten) := by
  unfold writeStream
  simp only [bind_eq_ok, raiseIf_eq_ok, pure_eq_ok, Bool.not_eq_false,
    consumeChunks_eq_ok_iff hsha]
  constructor
  · rintro ⟨_, ⟨hfits, hmagic, rfl⟩, _, havailable, rfl⟩
    exact ⟨hfits, hmagic, havailable, rfl⟩
  · rintro ⟨hfits, hmagic, havailable, rfl⟩
    exact ⟨_, ⟨hfits, hmagic, rfl⟩, (), havailable, rfl⟩

theorem transferRemote_eq_ok_iff (hsha : st.sha.Compositional) {chunks : List Bytes} :
    transferRemote st call chunks objects = .ok r
      ↔ putBytes st call chunks.flatten objects = .ok r := by
  unfold transferRemote putBytes
  simp only [bind_eq_ok, writeStream_eq_ok_iff hsha, List.flatten_singleton, Prod.exists,
    admitBytes_eq_ok_iff]
  constructor
  · rintro ⟨m, hmime, key, hkey, path, hpath, hfits, hmagic, hrest⟩
    exact ⟨m, key, ⟨hmime, hfits, hmagic, hkey⟩, path, hpath, hfits, hmagic, hrest⟩
  · rintro ⟨m, key, ⟨hmime, hfits, hmagic, hkey⟩, path, hpath, -, -, hrest⟩
    exact ⟨m, hmime, key, hkey, path, hpath, hfits, hmagic, hrest⟩

end LocalArtifactStorage

namespace S3ArtifactStorage

theorem putBytes_eq_ok_iff :
    putBytes st call content objects = .ok r
      ↔ ∃ m key, admitBytes st call content = .ok (m, key) ∧ st.available = true
        ∧ r = (storedArtifact "s3" key m content.length (st.sha.of content),
            objects.put key content) := by
  unfold putBytes
  simp only [bind_eq_ok, raiseIf_eq_ok, pure_eq_ok, Bool.not_eq_false, Prod.exists]
  constructor
  · rintro ⟨m, key, hadmitted, _, havailable, rfl⟩
    exact ⟨m, key, hadmitted, havailable, rfl⟩
  · rintro ⟨m, key, hadmitted, havailable, rfl⟩
    exact ⟨m, key, hadmitted, (), havailable, rfl⟩

theorem transferRemote_eq_ok_iff (hsha : st.sha.Compositional) {chunks : List Bytes} :
    transferRemote st call chunks objects = .ok r
      ↔ putBytes st call chunks.flatten objects = .ok r := by
  rw [putBytes_eq_ok_iff]
  unfold transferRemote
  simp only [bind_eq_ok, raiseIf_eq_ok, pure_eq_ok, Bool.not_eq_false,
    consumeChunks_eq_ok_iff hsha, admitBytes_eq_ok_iff]
  constructor
  · rintro ⟨m, hmime, key, hkey, _, ⟨hfits, hmagic, rfl⟩, _, havailable, rfl⟩
    exact ⟨m, key, ⟨hmime, hfits, hmagic, hkey⟩, havailable, rfl⟩
  · rintro ⟨m, key, ⟨hmime, hfits, hmagic, hkey⟩, havailable, rfl⟩
    exact ⟨m, hmime, key, hkey, _, ⟨hfits, hmagic, rfl⟩, (), havailable, rfl⟩

end S3ArtifactStorage

-- ============================================================= agreement

/-- A loop that ends has the result the buffered way stores. -/
theorem consumeChunks_iff_putBytes (hsha : st.sha.Compositional) {m : String}
    (hmime : validateMime call.mimeType = .ok m) (hkind : call.kind ∈ storedArtifactKinds)
    (havailable : st.available = true) {chunks : List Bytes} {k : Consumed} :
    consumeChunks st.sha m st.maxBytes chunks = .ok k
      ↔ ∃ key,
        LocalArtifactStorage.putBytes st call chunks.flatten objects
          = .ok (storedArtifact "local_fs" key m k.total k.digest, objects.put key k.written)
        ∧ S3ArtifactStorage.putBytes st call chunks.flatten objects
          = .ok (storedArtifact "s3" key m k.total k.digest, objects.put key k.written) := by
  have htable : m ∈ mimeExtensions.map (·.1) := by
    unfold validateMime at hmime
    simp only [bind_eq_ok, raiseIf_eq_ok, pure_eq_ok, not_not] at hmime
    obtain ⟨_, hmem, rfl⟩ := hmime
    exact hmem
  rw [consumeChunks_eq_ok_iff hsha]
  constructor
  · rintro ⟨hfits, hmagic, rfl⟩
    obtain ⟨key, hkey⟩ : ∃ key,
        newKey call.tenantId call.jobId call.kind m call.nonce = .ok key :=
      newKey_isOk hkind htable
    obtain ⟨g, hg⟩ := newKey_scoped hkey
    have hadmitted := admitBytes_eq_ok_iff.mpr ⟨hmime, hfits, hmagic, hkey⟩
    refine ⟨key, ?_, S3ArtifactStorage.putBytes_eq_ok_iff.mpr
      ⟨m, key, hadmitted, havailable, rfl⟩⟩
    unfold LocalArtifactStorage.putBytes
    simp only [bind_eq_ok, LocalArtifactStorage.writeStream_eq_ok_iff hsha,
      List.flatten_singleton]
    exact ⟨(m, key), hadmitted, key, hg.resolves, hfits, hmagic, havailable, rfl⟩
  · rintro ⟨key, -, hput⟩
    obtain ⟨m', key', hadmitted, -, heq⟩ := S3ArtifactStorage.putBytes_eq_ok_iff.mp hput
    obtain ⟨hmime', hfits, hmagic, -⟩ := admitBytes_eq_ok_iff.mp hadmitted
    rw [hmime] at hmime'
    obtain rfl := Except.ok.inj hmime'
    simp only [storedArtifact, Objects.put, Prod.mk.injEq, StoredArtifact.mk.injEq,
      List.cons.injEq, Option.some.injEq, Nat.cast_inj] at heq
    obtain ⟨⟨-, -, -, hsize, hdigest, -⟩, ⟨-, hwritten⟩, -⟩ := heq
    refine ⟨hfits, hmagic, ?_⟩
    cases k with
    | mk total digest written =>
        simp only at hsize hdigest hwritten
        rw [hsize, hdigest, hwritten]

/-- However the bytes are cut, storing the chunks and storing the whole
end the same way: both fail, or both leave the same objects and report
the same size and digest. -/
theorem streaming_agrees (st : Storage) (hsha : st.sha.Compositional) (call : ArtifactCall)
    (chunks : List Bytes) (objects : Objects) :
    (∀ r, LocalArtifactStorage.transferRemote st call chunks objects = .ok r
      ↔ LocalArtifactStorage.putBytes st call chunks.flatten objects = .ok r)
    ∧ (∀ r, S3ArtifactStorage.transferRemote st call chunks objects = .ok r
      ↔ S3ArtifactStorage.putBytes st call chunks.flatten objects = .ok r)
    ∧ ∀ m, validateMime call.mimeType = .ok m → call.kind ∈ storedArtifactKinds →
        st.available = true → ∀ k : Consumed,
        consumeChunks st.sha m st.maxBytes chunks = .ok k
          ↔ ∃ key,
            LocalArtifactStorage.putBytes st call chunks.flatten objects
              = .ok (storedArtifact "local_fs" key m k.total k.digest,
                  objects.put key k.written)
            ∧ S3ArtifactStorage.putBytes st call chunks.flatten objects
              = .ok (storedArtifact "s3" key m k.total k.digest,
                  objects.put key k.written) :=
  ⟨fun _ => LocalArtifactStorage.transferRemote_eq_ok_iff hsha,
    fun _ => S3ArtifactStorage.transferRemote_eq_ok_iff hsha,
    fun _ hmime hkind havailable _ => consumeChunks_iff_putBytes hsha hmime hkind havailable⟩

/-- The signature of a PNG and one byte more. -/
def samplePng : Bytes := [0x89, 0x50, 0x4E, 0x47, 0x0D, 0x0A, 0x1A, 0x0A, 0x00]

/-- SHA-256 as a state that keeps the bytes, and its digest of the sample. -/
def sampleSha : Sha256 where
  State := Bytes
  init := []
  update x chunk := x ++ chunk
  hexdigest x :=
    if x = samplePng then "843ac23b1736b4487ec81cf7c07ddd9bb46ae5b7818c2c3843d99d62fa75f3c9"
    else ""

theorem sampleSha_compositional : sampleSha.Compositional :=
  ⟨fun x => List.append_nil x, fun x a b => List.append_assoc x a b⟩

def sampleStorage : Storage := { sha := sampleSha, maxBytes := 9, available := true }

def sampleCall : ArtifactCall :=
  { tenantId := ⟨1, UUID.one_bound⟩, jobId := ⟨2, UUID.two_bound⟩, kind := "output"
    mimeType := " Image/PNG", nonce := ⟨3, UUID.three_bound⟩ }

/-- Three chunks, one of them empty, of as many bytes as there may be. -/
theorem streaming_agrees_sample :
    ∃ r, S3ArtifactStorage.transferRemote sampleStorage sampleCall
        [samplePng.take 2, [], samplePng.drop 2] [] = .ok r
      ∧ S3ArtifactStorage.putBytes sampleStorage sampleCall samplePng [] = .ok r
      ∧ r.1.sizeBytes = 9 ∧ r.2.map (·.2) = [samplePng] := by
  have hagree := streaming_agrees sampleStorage sampleSha_compositional sampleCall
    [samplePng.take 2, [], samplePng.drop 2] []
  obtain ⟨r, hr⟩ : ∃ r, S3ArtifactStorage.transferRemote sampleStorage sampleCall
      [samplePng.take 2, [], samplePng.drop 2] [] = .ok r := ⟨_, rfl⟩
  have hput := (hagree.2.1 r).mp hr
  refine ⟨r, hr, hput, ?_⟩
  obtain ⟨m, key, -, -, rfl⟩ := S3ArtifactStorage.putBytes_eq_ok_iff.mp hput
  exact ⟨rfl, rfl⟩

end Mosaic.Generation
