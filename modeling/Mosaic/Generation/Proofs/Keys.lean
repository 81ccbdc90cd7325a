/-
The keys of stored objects: what validates for a tenant and a job.

# One shape

`validateScopedKey_iff` gives the shape of a valid key: the tenant, the
job, and a name of kind, nonce and extension. Both directions matter. A
new key has the shape, so it validates; a key that validates has it for
one tenant and one job only, since the two are its segments before the
slashes and a UUID is told by its text.

The match of the name is the only one there is: the dot occurs once, so
it fixes the extension, and the nonce is the 32 characters before it.
-/
import Mosaic.Generation.Storage

namespace Mosaic.Generation

open Lib Pattern

variable {t j t' j' : UUID} {key : String} {s : List Char}

-- ================================================================ UUIDs

def asciiValue (c : Nat) : Option Nat := if 48 ≤ c ∧ c ≤ 57 then some (c - 48) else none

theorem asciiValue_ascii (c : Nat) (_ : c < 128) :
    asciiValue c = if 48 ≤ c ∧ c ≤ 57 then some (c - 48) else none := rfl

/-- The decimal digits of ASCII. -/
def asciiDecimals : Uuid.Decimals where
  value := asciiValue
  ascii := asciiValue_ascii

/-- Two UUIDs with one text are one. -/
theorem UUID.str_injective {u v : UUID} (h : u.str = v.str) : u = v := by
  have hu := Uuid.parse_text asciiDecimals u.bound
  have hv := Uuid.parse_text asciiDecimals v.bound
  have htext : Uuid.text u.int = Uuid.text v.int := h
  rw [htext, hv] at hu
  cases u with
  | mk n hn =>
      cases v with
      | mk m hm =>
          obtain rfl := Option.some.inj hu
          rfl

/-- A hexadecimal digit, as a UUID is written with. -/
theorem hexDigit_digitChar {d : Nat} (h : d < 16) : hexDigit (Nat.digitChar d) = true := by
  interval_cases d <;> decide

theorem hexDigit_of_mem {n : Nat} {c : Char} (h : c ∈ Uuid.hex n) : hexDigit c = true := by
  obtain ⟨d, hd, rfl⟩ := Uuid.mem_hex h
  exact hexDigit_digitChar hd

theorem UUID.mem_str {u : UUID} {c : Char} (h : c ∈ u.str.toList) :
    c = '-' ∨ hexDigit c = true := by
  obtain rfl | ⟨d, hd, rfl⟩ := Uuid.mem_text h
  · exact Or.inl rfl
  · exact Or.inr (hexDigit_digitChar hd)

/-- A character outside a UUID's text. -/
theorem UUID.notMem_str {x : Char} (hdash : x ≠ '-') (hhex : hexDigit x = false)
    (u : UUID) : x ∉ u.str.toList := by
  intro hmem
  obtain rfl | h := UUID.mem_str hmem
  · exact hdash rfl
  · rw [hhex] at h
    cases h

theorem hex_length (u : UUID) : (Uuid.hex u.int).length = 32 := by
  rw [Uuid.hex, List.length_map, Uuid.length_nibbles]

theorem UUID.str_length (u : UUID) : u.str.toList.length = 36 := by
  simp [UUID.str, Uuid.text, hex_length u]

-- ================================================================ names

/-- What the validator asks of the name of an object. -/
structure KeyName.Valid (g : KeyName) : Prop where
  kind : fullmatch kindRe g.kind ≠ none
  length : g.nonce.length = 32
  nonce : ∀ c ∈ g.nonce, hexDigit c = true
  extension : ∃ e, g.extension = '.' :: e ∧ e ≠ []
    ∧ ∀ c ∈ e, (lowerLetter c || digit c) = true

/-- The text of a name. -/
def KeyName.text (g : KeyName) : List Char := g.kind ++ '-' :: (g.nonce ++ g.extension)

theorem only_fits {x : Char} {p : List Char} : (only x).Fits p ↔ p = [x] := by
  constructor
  · intro h
    have hleast := h.least
    have hmost := h.most 1 rfl
    simp only [only] at hleast
    obtain ⟨c, rfl⟩ := List.length_eq_one_iff.mp (le_antisymm hmost hleast)
    have hc := h.accepts c List.mem_cons_self
    simp only [only, beq_iff_eq] at hc
    rw [hc]
  · rintro rfl
    refine ⟨le_refl 1, fun m hm => ?_, fun c hc => ?_⟩
    · obtain rfl := Option.some.inj hm
      exact le_refl 1
    · rw [List.mem_singleton.mp hc]
      simp [only]

theorem kindRe_parts {p : List (List Char)} (h : List.Forall₂ Item.Fits kindRe p) :
    ∃ first more, p = [first, more] ∧ (∀ c ∈ first, lowerLetter c = true)
      ∧ ∀ c ∈ more, kindChar c = true := by
  rcases h with _ | ⟨hfirst, _ | ⟨hmore, _ | _⟩⟩
  exact ⟨_, _, rfl, hfirst.accepts, hmore.accepts⟩

/-- A kind is made of letters, digits, hyphens and underscores. -/
theorem mem_kind {k : List Char} (h : fullmatch kindRe k ≠ none) {c : Char} (hc : c ∈ k) :
    kindChar c = true := by
  obtain ⟨p, hp⟩ := Option.ne_none_iff_exists'.mp h
  obtain ⟨rfl, hall⟩ := fullmatch_sound hp
  obtain ⟨first, more, rfl, hfirst, hmore⟩ := kindRe_parts hall
  simp only [List.flatten_cons, List.flatten_nil, List.append_nil, List.mem_append] at hc
  rcases hc with hc | hc
  · simp [kindChar, hfirst c hc]
  · exact hmore c hc

/-- The parts of a name, the literal ones known. -/
theorem keyNameRe_parts {p : List (List Char)} (h : List.Forall₂ Item.Fits keyNameRe p) :
    ∃ first more nonce extension, p = [first, more, ['-'], nonce, ['.'], extension]
      ∧ KeyName.Valid ⟨first ++ more, nonce, '.' :: extension⟩ := by
  rcases h with _ | ⟨hfirst, _ | ⟨hmore, _ | ⟨hdash, _ | ⟨hnonce, _ | ⟨hdot,
    _ | ⟨hextension, _ | _⟩⟩⟩⟩⟩⟩
  next first more dash nonce dot extension =>
    obtain rfl := only_fits.mp hdash
    obtain rfl := only_fits.mp hdot
    refine ⟨first, more, nonce, extension, rfl, ?_, ?_, hnonce.accepts, extension, rfl, ?_,
      hextension.accepts⟩
    · have hkind : List.Forall₂ Item.Fits kindRe [first, more] :=
        List.Forall₂.cons hfirst (List.Forall₂.cons hmore List.Forall₂.nil)
      obtain ⟨took, htook⟩ := fullmatch_isSome hkind
      simp only [List.flatten_cons, List.flatten_nil, List.append_nil] at htook
      rw [htook]
      exact Option.some_ne_none took
    · exact le_antisymm (hnonce.most 32 rfl) hnonce.least
    · rintro rfl
      exact absurd hextension.least (by decide)

/-- A match of a name says what the name is. -/
theorem keyName_sound {g : KeyName} (h : keyName s = some g) : s = g.text ∧ g.Valid := by
  unfold keyName at h
  cases hmatch : fullmatch keyNameRe s with
  | none =>
      rw [hmatch] at h
      cases h
  | some p =>
      obtain ⟨rfl, hall⟩ := fullmatch_sound hmatch
      obtain ⟨first, more, nonce, extension, rfl, hvalid⟩ := keyNameRe_parts hall
      rw [hmatch] at h
      obtain rfl := Option.some.inj h
      exact ⟨by simp [KeyName.text], hvalid⟩

/-- The dot of a name comes after its kind and its nonce. -/
theorem KeyName.Valid.dot_notMem {g : KeyName} (h : g.Valid) :
    '.' ∉ g.kind ++ '-' :: g.nonce := by
  intro hmem
  rcases List.mem_append.mp hmem with hmem | hmem
  · exact absurd (mem_kind h.kind hmem) (by decide)
  · rcases List.mem_cons.mp hmem with heq | hmem
    · exact absurd heq (by decide)
    · exact absurd (h.nonce _ hmem) (by decide)

/-- A name can be cut in one way. -/
theorem KeyName.text_injective {g g' : KeyName} (hg : g.Valid) (hg' : g'.Valid)
    (h : g.text = g'.text) : g = g' := by
  obtain ⟨e, he, -, hmem⟩ := hg.extension
  obtain ⟨e', he', -, -⟩ := hg'.extension
  have hdot : '.' ∉ e := fun hc => absurd (hmem _ hc) (by decide)
  have hsplit : ∀ x : KeyName, x.text = (x.kind ++ '-' :: x.nonce) ++ x.extension := by
    intro x
    simp [KeyName.text]
  rw [hsplit, hsplit, he, he'] at h
  obtain ⟨hfront, -, hext⟩ := (List.append_cons_inj_of_notMem hg.dot_notMem hdot).mp h
  obtain ⟨hkind, hnonce⟩ := List.append_inj' hfront
    (by rw [List.length_cons, List.length_cons, hg.length, hg'.length])
  cases g with
  | mk kind nonce extension =>
      cases g' with
      | mk kind' nonce' extension' =>
          simp only at he he' hkind hnonce
          rw [he, he', hkind, (List.cons.inj hnonce).2, hext]

/-- A valid name is matched, and as what it is. -/
theorem keyName_text {g : KeyName} (h : g.Valid) : keyName g.text = some g := by
  obtain ⟨kinds, hkinds⟩ := Option.ne_none_iff_exists'.mp h.kind
  obtain ⟨hflat, hall⟩ := fullmatch_sound hkinds
  obtain ⟨first, more, rfl, -, -⟩ := kindRe_parts hall
  obtain ⟨e, he, hne, hmem⟩ := h.extension
  have hparts : List.Forall₂ Item.Fits keyNameRe [first, more, ['-'], g.nonce, ['.'], e] := by
    rcases hall with _ | ⟨hfirst, _ | ⟨hmore, _ | _⟩⟩
    refine .cons hfirst (.cons hmore (.cons (only_fits.mpr rfl) (.cons ?_
      (.cons (only_fits.mpr rfl) (.cons ?_ .nil)))))
    · refine ⟨h.length.ge, fun m hm => ?_, h.nonce⟩
      obtain rfl := Option.some.inj hm
      exact h.length.le
    · refine ⟨List.length_pos_of_ne_nil hne, fun m hm => ?_, hmem⟩
      cases hm
  have htext : [first, more, ['-'], g.nonce, ['.'], e].flatten = g.text := by
    simp only [List.flatten_cons, List.flatten_nil, List.append_nil] at hflat
    simp [KeyName.text, ← hflat, he]
  obtain ⟨took, htook⟩ := fullmatch_isSome hparts
  rw [htext] at htook
  -- whatever the matcher took, it is a name with this text
  obtain ⟨hflat', hall'⟩ := fullmatch_sound htook
  obtain ⟨first', more', nonce', e', rfl, hvalid'⟩ := keyNameRe_parts hall'
  have hsame : (⟨first' ++ more', nonce', '.' :: e'⟩ : KeyName) = g := by
    refine KeyName.text_injective hvalid' h ?_
    rw [← hflat']
    simp [KeyName.text]
  unfold keyName
  rw [htook, ← hsame]
  rfl

-- ============================================================ valid keys

/-- A valid key: tenant, job, and a name of a known kind and extension. -/
structure ScopedKey (t j : UUID) (key : String) (g : KeyName) : Prop where
  text : key.toList = t.str.toList ++ '/' :: (j.str.toList ++ '/' :: g.text)
  name : g.Valid
  kind : ∃ k ∈ storedArtifactKinds, k.toList = g.kind
  extension : g.extension ∈ mimeExtensions.map (·.2.toList)

/-- No slash is in a name. -/
theorem KeyName.Valid.slash_notMem {g : KeyName} (h : g.Valid) : '/' ∉ g.text := by
  obtain ⟨e, he, -, hmem⟩ := h.extension
  intro hc
  simp only [KeyName.text, he, List.mem_append, List.mem_cons] at hc
  rcases hc with hc | hc | hc | hc | hc
  · exact absurd (mem_kind h.kind hc) (by decide)
  · exact absurd hc (by decide)
  · exact absurd (h.nonce _ hc) (by decide)
  · exact absurd hc (by decide)
  · exact absurd (hmem _ hc) (by decide)

/-- The segments of a valid key. -/
theorem ScopedKey.segments {g : KeyName} (h : ScopedKey t j key g) :
    key.toList.splitOn '/' = [t.str.toList, j.str.toList, g.text] := by
  rw [h.text, List.splitOn_append_cons_self_of_not_mem
      (UUID.notMem_str (by decide) (by decide) t),
    List.splitOn_append_cons_self_of_not_mem (UUID.notMem_str (by decide) (by decide) j),
    List.splitOn_eq_singleton h.name.slash_notMem]

/-- A key validates exactly when it has the shape. -/
theorem validateScopedKey_iff {out : String} :
    validateScopedKey t j key = .ok out ↔ out = key ∧ ∃ g, ScopedKey t j key g := by
  constructor
  · intro h
    unfold validateScopedKey at h
    simp only [bind_eq_ok, raiseIf_eq_ok, orRaise_eq_ok, pure_eq_ok,
      Option.filter_eq_some_iff, not_or, not_not] at h
    obtain ⟨_, -, _, ⟨hthree, htwo⟩, g, ⟨hname, hkind⟩, _, hextension, rfl⟩ := h
    refine ⟨rfl, g, ?_⟩
    obtain ⟨a, b, c, hparts⟩ := List.length_eq_three.mp hthree
    rw [hparts] at htwo hname
    simp only [List.take_succ_cons, List.take_zero, List.cons.injEq, and_true] at htwo
    obtain ⟨htext, hvalid⟩ := keyName_sound hname
    simp only [List.getD_cons_succ, List.getD_cons_zero] at htext
    refine ⟨?_, hvalid, ?_, ?_⟩
    · have hjoin : ['/'].intercalate (key.toList.splitOn '/') = key.toList :=
        List.intercalate_splitOn '/'
      rw [hparts, htwo.1, htwo.2, htext] at hjoin
      rw [← hjoin]
      simp [List.intercalate]
    · obtain ⟨k, hk, heq⟩ := List.any_eq_true.mp hkind
      exact ⟨k, hk, beq_iff_eq.mp heq⟩
    · simpa using hextension
  · rintro ⟨rfl, g, h⟩
    have hsegments := h.segments
    unfold validateScopedKey
    simp only [bind_eq_ok, raiseIf_eq_ok, orRaise_eq_ok, pure_eq_ok,
      Option.filter_eq_some_iff, not_or, not_not]
    refine ⟨(), ?_, (), ?_, g, ⟨?_, ?_⟩, (), ?_, trivial⟩
    · rw [h.text]
      simp
    · rw [hsegments]
      exact ⟨rfl, rfl⟩
    · rw [hsegments]
      exact keyName_text h.name
    · obtain ⟨k, hk, heq⟩ := h.kind
      exact List.any_eq_true.mpr ⟨k, hk, beq_iff_eq.mpr heq⟩
    · simpa using h.extension

-- ============================================================== new keys

theorem mem_mimeExtensions {mimeType extension : String}
    (h : mimeExtensions.lookup mimeType = some extension) :
    extension ∈ mimeExtensions.map (·.2) := by
  obtain ⟨l, r, heq, -⟩ := List.lookup_eq_some_iff.mp h
  rw [heq]
  simp

/-- Every extension is a dot and some letters and digits. -/
theorem extension_valid : ∀ x ∈ mimeExtensions.map (·.2.toList), ∃ e, x = '.' :: e ∧ e ≠ []
    ∧ ∀ c ∈ e, (lowerLetter c || digit c) = true := by
  intro x hx
  have hcheck : ∀ x ∈ mimeExtensions.map (·.2.toList), x.head? = some '.' ∧ x.tail ≠ []
      ∧ x.tail.all (fun c => lowerLetter c || digit c) = true := by decide
  obtain ⟨hhead, htail, hall⟩ := hcheck x hx
  have hmem := List.all_eq_true.mp hall
  cases x with
  | nil => cases hhead
  | cons c e =>
      obtain rfl := Option.some.inj hhead
      exact ⟨e, rfl, htail, hmem⟩

/-- A new key is a valid one. -/
theorem newKey_scoped {kind mimeType : String} {nonce : UUID}
    (h : newKey t j kind mimeType nonce = .ok key) : ∃ g, ScopedKey t j key g := by
  unfold newKey at h
  simp only [bind_eq_ok, raiseIf_eq_ok, orRaise_eq_ok, pure_eq_ok, not_or,
    not_not] at h
  obtain ⟨_, ⟨hre, hkind⟩, extension, hlookup, rfl⟩ := h
  have hextension : extension.toList ∈ mimeExtensions.map (·.2.toList) := by
    have := List.mem_map_of_mem (f := String.toList) (mem_mimeExtensions hlookup)
    simpa using this
  have hlength := hex_length nonce
  have hmem : ∀ c ∈ Uuid.hex nonce.int, hexDigit c = true := fun c hc => hexDigit_of_mem hc
  generalize hhex : Uuid.hex nonce.int = digits at hlength hmem
  have hvalid : KeyName.Valid ⟨kind.toList, digits, extension.toList⟩ :=
    ⟨hre, hlength, hmem, extension_valid _ hextension⟩
  refine ⟨⟨kind.toList, digits, extension.toList⟩, ?_, hvalid, ⟨kind, hkind, rfl⟩, hextension⟩
  simp [KeyName.text, UUID.hex, hhex]

/-- A key is valid for one tenant and job. -/
theorem ScopedKey.scope {g g' : KeyName} (h : ScopedKey t j key g)
    (h' : ScopedKey t' j' key g') : t = t' ∧ j = j' := by
  have hsegments := h.segments
  rw [h'.segments] at hsegments
  simp only [List.cons.injEq] at hsegments
  obtain ⟨ht, hj, -⟩ := hsegments
  exact ⟨UUID.str_injective (String.toList_inj.mp ht.symm),
    UUID.str_injective (String.toList_inj.mp hj.symm)⟩

/-- A key is made for every kind and media type of the tables. -/
theorem newKey_isOk {kind mimeType : String} {nonce : UUID} (hkind : kind ∈ storedArtifactKinds)
    (hmime : mimeType ∈ mimeExtensions.map (·.1)) :
    ∃ key, newKey t j kind mimeType nonce = .ok key := by
  have hre : ∀ k ∈ storedArtifactKinds, fullmatch kindRe k.toList ≠ none := by decide
  have hlookup : ∀ m ∈ mimeExtensions.map (·.1), (mimeExtensions.lookup m).isSome = true := by
    decide
  obtain ⟨extension, hextension⟩ := Option.isSome_iff_exists.mp (hlookup mimeType hmime)
  have hguard := raiseIf_eq_ok (e := StorageError.valueError "invalid artifact kind")
    (u := ()) |>.mpr (not_or.mpr ⟨hre kind hkind, not_not.mpr hkind⟩)
  unfold newKey
  rw [hguard, hextension]
  exact ⟨_, rfl⟩

-- ============================================================== scoping

/-- Nothing in a valid key climbs. -/
theorem ScopedKey.chars {g : KeyName} (h : ScopedKey t j key g) :
    '\\' ∉ key.toList ∧ ¬ ['.', '.'] <:+: key.toList := by
  obtain ⟨e, he, -, hmem⟩ := h.name.extension
  -- everything before the dot, and everything after it
  have hsplit : key.toList = (t.str.toList ++ '/' :: (j.str.toList ++ '/' ::
      (g.kind ++ '-' :: g.nonce))) ++ '.' :: e := by
    rw [h.text, KeyName.text, he]
    simp
  have hfront : ∀ x, (x = '\\' ∨ x = '.') → x ∉ t.str.toList ++ '/' :: (j.str.toList ++ '/' ::
      (g.kind ++ '-' :: g.nonce)) := by
    intro x hx hc
    have hdash : x ≠ '-' ∧ x ≠ '/' ∧ hexDigit x = false ∧ kindChar x = false := by
      rcases hx with rfl | rfl
      · decide
      · decide
    simp only [List.mem_append, List.mem_cons] at hc
    rcases hc with hc | hc | hc | hc | hc | hc | hc
    · exact UUID.notMem_str hdash.1 hdash.2.2.1 t hc
    · exact hdash.2.1 hc
    · exact UUID.notMem_str hdash.1 hdash.2.2.1 j hc
    · exact hdash.2.1 hc
    · exact absurd (mem_kind h.name.kind hc) (by rw [hdash.2.2.2]; decide)
    · exact hdash.1 hc
    · exact absurd (h.name.nonce _ hc) (by rw [hdash.2.2.1]; decide)
  have hback : ∀ x, (x = '\\' ∨ x = '.') → x ∉ e := by
    intro x hx hc
    have := hmem x hc
    rcases hx with rfl | rfl
    · exact absurd this (by decide)
    · exact absurd this (by decide)
  constructor
  · rw [hsplit]
    intro hc
    rcases List.mem_append.mp hc with hc | hc
    · exact hfront _ (Or.inl rfl) hc
    · rcases List.mem_cons.mp hc with hc | hc
      · exact absurd hc (by decide)
      · exact hback _ (Or.inl rfl) hc
  · rintro ⟨a, b, hab⟩
    rw [hsplit] at hab
    have hone : (a ++ ['.', '.'] ++ b).count '.' = 1 := by
      rw [hab, List.count_append, List.count_cons_self,
        List.count_eq_zero_of_not_mem (hfront _ (Or.inr rfl)),
        List.count_eq_zero_of_not_mem (hback _ (Or.inr rfl))]
    have htwo : (['.', '.'] : List Char).count '.' = 2 := by decide
    rw [List.count_append, List.count_append, htwo] at hone
    omega

/-- No valid key is a tombstone: a UUID has no `l`. -/
theorem ScopedKey.not_deleted {g : KeyName} (h : ScopedKey t j key g) :
    ¬ "deleted/".toList <+: key.toList := by
  intro hpre
  rw [h.text] at hpre
  have htake : "deleted/".toList <+: t.str.toList :=
    List.prefix_of_prefix_length_le hpre (List.prefix_append _ _)
      (by rw [UUID.str_length]; decide)
  have hl : 'l' ∈ t.str.toList := htake.subset (by decide)
  exact UUID.notMem_str (by decide) (by decide) t hl

/-- Each segment of a valid key is longer than a climb. -/
theorem ScopedKey.segment_length {g : KeyName} (h : ScopedKey t j key g) {segment : List Char}
    (hmem : segment ∈ key.toList.splitOn '/') : 3 ≤ segment.length := by
  rw [h.segments] at hmem
  simp only [List.mem_cons, List.not_mem_nil, or_false] at hmem
  rcases hmem with heq | heq | heq
  · rw [heq, UUID.str_length]
    decide
  · rw [heq, UUID.str_length]
    decide
  · have hnonce := h.name.length
    rw [heq, KeyName.text, List.length_append, List.length_cons, List.length_append]
    omega

/-- The local storage finds a path for every valid key. -/
theorem ScopedKey.resolves {g : KeyName} (h : ScopedKey t j key g) :
    LocalArtifactStorage.resolveObjectPath key = .ok key := by
  have hslash : '/' ∈ key.toList := by
    rw [h.text]
    simp
  have hblank : PyStr.blank key ≠ true := by
    intro hblank
    have hspace := List.all_eq_true.mp hblank _ hslash
    exact absurd hspace (by decide)
  have hhead : key.toList.head? ≠ some '/' := by
    intro hhead
    have hsegments := h.segments
    cases hkey : key.toList with
    | nil =>
        rw [hkey] at hhead
        cases hhead
    | cons c rest =>
        rw [hkey] at hhead
        obtain rfl := Option.some.inj hhead
        have hnil : ([] : List Char) ∈ key.toList.splitOn '/' := by
          rw [hkey, show '/' :: rest = [] ++ '/' :: rest from rfl,
            List.splitOn_append_cons_self_of_not_mem List.not_mem_nil]
          exact List.mem_cons_self
        exact absurd (h.segment_length hnil) (by decide)
  have hclimb : ¬ (key.toList.splitOn '/').contains ['.', '.'] = true := by
    intro hclimb
    exact absurd (h.segment_length (List.contains_iff_mem.mp hclimb)) (by decide)
  unfold LocalArtifactStorage.resolveObjectPath
  simp only [bind_eq_ok, raiseIf_eq_ok, pure_eq_ok, not_or]
  exact ⟨(), ⟨hblank, hhead, hclimb⟩, trivial⟩

/-- What the scoping of keys amounts to: new keys validate, a key is valid
for one tenant and job only, and a valid key is three segments that lead
straight down, and no tombstone. -/
theorem object_keys_scoped :
    (∀ t j kind mimeType nonce key, newKey t j kind mimeType nonce = .ok key →
      validateScopedKey t j key = .ok key)
    ∧ (∀ key t j t' j' out out', validateScopedKey t j key = .ok out →
      validateScopedKey t' j' key = .ok out' → t = t' ∧ j = j')
    ∧ (∀ t j key out, validateScopedKey t j key = .ok out →
      ¬ "deleted/".toList <+: key.toList
      ∧ (key.toList.splitOn '/').length = 3
      ∧ (∀ segment ∈ key.toList.splitOn '/',
          segment ≠ [] ∧ segment ≠ ['.'] ∧ segment ≠ ['.', '.'])
      ∧ '\\' ∉ key.toList ∧ ¬ ['.', '.'] <:+: key.toList) := by
  refine ⟨fun t j kind mimeType nonce key h => ?_, fun key t j t' j' out out' h h' => ?_,
    fun t j key out h => ?_⟩
  · exact validateScopedKey_iff.mpr ⟨rfl, newKey_scoped h⟩
  · obtain ⟨-, g, hg⟩ := validateScopedKey_iff.mp h
    obtain ⟨-, g', hg'⟩ := validateScopedKey_iff.mp h'
    exact hg.scope hg'
  · obtain ⟨-, g, hg⟩ := validateScopedKey_iff.mp h
    refine ⟨hg.not_deleted, by rw [hg.segments]; rfl, ?_, hg.chars⟩
    have hlong : ∀ l : List Char, 3 ≤ l.length → l ≠ [] ∧ l ≠ ['.'] ∧ l ≠ ['.', '.'] := by
      intro l hl
      refine ⟨?_, ?_, ?_⟩ <;> rintro rfl <;> simp at hl
    exact fun segment hsegment => hlong segment (hg.segment_length hsegment)

/-- A key of job 2 of tenant 1. -/
def sampleKey : Except StorageError String :=
  newKey ⟨1, UUID.one_bound⟩ ⟨2, UUID.two_bound⟩ "output" "video/mp4" ⟨3, UUID.three_bound⟩

example : sampleKey = .ok ("00000000-0000-0000-0000-000000000001/"
    ++ "00000000-0000-0000-0000-000000000002/"
    ++ "output-00000000000000000000000000000003.mp4") := by rfl

theorem object_keys_scoped_sample :
    ∃ key, sampleKey = .ok key ∧ validateScopedKey ⟨1, by decide⟩ ⟨2, by decide⟩ key = .ok key
      ∧ (∀ t j out, validateScopedKey t j key = .ok out →
          t = ⟨1, by decide⟩ ∧ j = ⟨2, by decide⟩)
      ∧ '\\' ∉ key.toList := by
  obtain ⟨key, hkey⟩ : ∃ key, sampleKey = .ok key := newKey_isOk (by decide) (by decide)
  obtain ⟨hnew, hone, hshape⟩ := object_keys_scoped
  have hvalid := hnew _ _ _ _ _ _ hkey
  exact ⟨key, hkey, hvalid, fun t j out h => hone key t j _ _ out _ h hvalid,
    (hshape _ _ key _ hvalid).2.2.2.1⟩

end Mosaic.Generation
