/-
A sorted set under one Redis key, with the key's own expiry.

The two expiries are separate: a member has a score, which is a number
to Redis and nothing else, and the key as a whole may carry a time after
which every command finds it absent. A set left without members is an
absent key, and loses its expiry with it.
-/
import Mathlib

namespace Mosaic.Lib

/-- Members with their scores; `expireAt` is the last millisecond of the
key. -/
structure Zset where
  members : List (Nat × Nat)
  expireAt : Option Nat
deriving Repr, DecidableEq

namespace Zset

/-- The absent key. -/
def absent : Zset := ⟨[], none⟩

/-- The key as a command at `now` finds it. -/
def found (z : Zset) (now : Nat) : Zset :=
  if z.expireAt.any (· < now) then absent else z

def withMembers (z : Zset) (members : List (Nat × Nat)) : Zset :=
  if members = [] then absent else { z with members }

/-- `ZREMRANGEBYSCORE key -inf max`. -/
def zremrangebyscore (z : Zset) (max : Nat) : Zset :=
  z.withMembers (z.members.filter fun e => max < e.2)

/-- `ZCARD key`. -/
def zcard (z : Zset) : Nat := z.members.length

/-- `ZSCORE key member`. -/
def zscore (z : Zset) (member : Nat) : Option Nat :=
  (z.members.find? fun e => e.1 == member).map (·.2)

/-- `ZADD key score member`. -/
def zadd (z : Zset) (score member : Nat) : Zset :=
  { z with members := (member, score) :: z.members.filter fun e => e.1 != member }

/-- `ZREM key member`, with the number of members removed. -/
def zrem (z : Zset) (member : Nat) : Nat × Zset :=
  let rest := z.members.filter fun e => e.1 != member
  (z.members.length - rest.length, z.withMembers rest)

/-- `PEXPIRE key milliseconds`. -/
def pexpire (z : Zset) (now milliseconds : Nat) : Zset :=
  if z.members = [] then z else { z with expireAt := some (now + milliseconds) }

/-- `DEL key`. -/
def del (_ : Zset) : Zset := absent

variable {z : Zset} {now max member score : Nat} {e : Nat × Nat}

theorem members_withMembers (z : Zset) (members : List (Nat × Nat)) :
    (z.withMembers members).members = members := by
  unfold withMembers
  split
  · next h => rw [h]; rfl
  · rfl

theorem mem_zremrangebyscore :
    e ∈ (z.zremrangebyscore max).members ↔ e ∈ z.members ∧ max < e.2 := by
  unfold zremrangebyscore
  rw [members_withMembers]
  simp

theorem mem_zadd :
    e ∈ (z.zadd score member).members
      ↔ e = (member, score) ∨ (e ∈ z.members ∧ e.1 ≠ member) := by
  simp [zadd]

theorem mem_zrem :
    e ∈ (z.zrem member).2.members ↔ e ∈ z.members ∧ e.1 ≠ member := by
  simp [zrem, members_withMembers]

@[simp] theorem members_pexpire (z : Zset) (now ms : Nat) :
    (z.pexpire now ms).members = z.members := by
  unfold pexpire
  split <;> rfl

/-- A key with members does get its expiry. -/
theorem expireAt_pexpire_zadd (z : Zset) (score member now ms : Nat) :
    ((z.zadd score member).pexpire now ms).expireAt = some (now + ms) := by
  simp [pexpire, zadd]

/-- A key keeps its expiry while it has members. -/
theorem expireAt_withMembers {members : List (Nat × Nat)} {t : Nat}
    (h : (z.withMembers members).expireAt = some t) : z.expireAt = some t := by
  unfold withMembers at h
  split at h
  · cases h
  · exact h

theorem expireAt_found {t : Nat} (h : (z.found now).expireAt = some t) :
    z.expireAt = some t := by
  unfold found at h
  split at h
  · cases h
  · exact h

/-- A key is found whole or not at all. -/
theorem found_eq (h : ∀ t, z.expireAt = some t → now ≤ t) : z.found now = z := by
  unfold found
  rw [if_neg]
  intro hany
  obtain ⟨t, ht, hlt⟩ := Option.any_eq_true _ _ |>.mp hany
  have := h t ht
  simp only [decide_eq_true_eq] at hlt
  omega

theorem found_expired {t : Nat} (h : z.expireAt = some t) (hlt : t < now) :
    z.found now = absent := by
  unfold found
  rw [if_pos]
  simp [h, hlt]

theorem mem_of_found (h : e ∈ (z.found now).members) : e ∈ z.members := by
  unfold found at h
  split at h
  · cases h
  · exact h

theorem zscore_isSome : z.zscore member ≠ none ↔ ∃ score, (member, score) ∈ z.members := by
  unfold zscore
  rw [Ne, Option.map_eq_none_iff, List.find?_eq_none]
  constructor
  · intro h
    push Not at h
    obtain ⟨⟨m, score⟩, hmem, heq⟩ := h
    obtain rfl : m = member := by simpa using heq
    exact ⟨score, hmem⟩
  · rintro ⟨score, hmem⟩ h
    exact h _ hmem (by simp)

-- ============================================================== distinct

/-- Every member stands in the set once. -/
def Distinct (z : Zset) : Prop := (z.members.map (·.1)).Nodup

theorem Distinct.absent : Zset.absent.Distinct := List.nodup_nil

theorem Distinct.sublist {z' : Zset} (h : z.Distinct)
    (hsub : z'.members.Sublist z.members) : z'.Distinct :=
  List.Nodup.sublist (hsub.map _) h

theorem found_sublist (z : Zset) (now : Nat) :
    (z.found now).members.Sublist z.members := by
  unfold found
  split
  · exact List.nil_sublist _
  · exact List.Sublist.refl _

theorem zremrangebyscore_sublist (z : Zset) (max : Nat) :
    (z.zremrangebyscore max).members.Sublist z.members := by
  unfold zremrangebyscore
  rw [members_withMembers]
  exact List.filter_sublist

theorem zrem_sublist (z : Zset) (member : Nat) :
    (z.zrem member).2.members.Sublist z.members := by
  unfold zrem
  dsimp only
  rw [members_withMembers]
  exact List.filter_sublist

theorem Distinct.zadd (h : z.Distinct) (score member : Nat) :
    (z.zadd score member).Distinct := by
  show (((member, score) :: z.members.filter fun e => e.1 != member).map (·.1)).Nodup
  rw [List.map_cons, List.nodup_cons]
  refine ⟨?_, List.Nodup.sublist (List.filter_sublist.map _) h⟩
  intro hmem
  obtain ⟨e, he, heq⟩ := List.mem_map.mp hmem
  simp [heq] at he

theorem zcard_zadd_le (z : Zset) (score member : Nat) :
    (z.zadd score member).zcard ≤ z.zcard + 1 := by
  show (List.filter _ z.members).length + 1 ≤ z.members.length + 1
  have := List.length_filter_le (fun e : Nat × Nat => e.1 != member) z.members
  omega

/-- A member that is there already takes no more room. -/
theorem zcard_zadd_of_mem (h : ∃ s, (member, s) ∈ z.members) (score : Nat) :
    (z.zadd score member).zcard ≤ z.zcard := by
  obtain ⟨s, hs⟩ := h
  show (List.filter _ z.members).length + 1 ≤ z.members.length
  have hlt : (z.members.filter fun e => e.1 != member).length < z.members.length :=
    List.length_filter_lt_length_iff_exists.mpr ⟨_, hs, by simp⟩
  omega

end Zset

end Mosaic.Lib
