import Mathlib.Data.List.Nodup
import ClusterQuery.Render
import ClusterQuery.Proofs.Json.Values

/-!
# Records read back from JSON

Each codec reads what it writes, an absent value being a member that is left out. No two members
of a kind have one key, so every member is found under its own key in what is written of a
record, and a record is the blank one with all of its members set. Hence the records of any kind
are read back from their JSON text.
-/

namespace ClusterQuery

open Json

/-- A type stands for the whole numbers below a bound. -/
structure IsWord {α : Type} (size : Nat) (make : (n : Nat) → n < size → α) (toNat : α → Nat) :
    Prop where
  toNat_lt : ∀ a, toNat a < size
  toNat_make : ∀ n h, toNat (make n h) = n
  make_toNat : ∀ a, make (toNat a) (toNat_lt a) = a

theorem isWord32 : IsWord UInt32.size UInt32.ofNatLT UInt32.toNat :=
  ⟨UInt32.toNat_lt_size, fun _ _ => UInt32.toNat_ofNatLT, UInt32.ofNatLT_toNat⟩

theorem isWord64 : IsWord UInt64.size UInt64.ofNatLT UInt64.toNat :=
  ⟨UInt64.toNat_lt_size, fun _ _ => UInt64.toNat_ofNatLT, UInt64.ofNatLT_toNat⟩

theorem word?_eq_some_iff {α : Type} {size : Nat} {make : (n : Nat) → n < size → α}
    {toNat : α → Nat} (hw : IsWord size make toNat) {v : Json} {a : α} :
    word? size make v = some a ↔ v = .number (.integer (toNat a)) := by
  constructor
  · intro h
    unfold word? at h
    split at h
    · next n =>
        split_ifs at h with hn
        cases h
        rw [hw.toNat_make]
        rfl
    · contradiction
  · rintro rfl
    have hlt := hw.toNat_lt a
    change (if h : toNat a < size then some (make (toNat a) h) else none) = some a
    rw [dif_pos hlt, hw.make_toNat]

theorem word32?_eq_some_iff {v : Json} {n : UInt32} :
    word32? v = some n ↔ v = .number (.integer n.toNat) :=
  word?_eq_some_iff isWord32

theorem word64?_eq_some_iff {v : Json} {n : UInt64} :
    word64? v = some n ↔ v = .number (.integer n.toNat) :=
  word?_eq_some_iff isWord64

theorem Codec.read_write {β : Type} (codec : Codec β) (v : β) :
    codec.read ((codec.write v).map Scalar.toJson) = some v := by
  cases codec with
  | word32 => exact word32?_eq_some_iff.mpr rfl
  | text => rfl
  | optionalWord32 =>
      cases v with
      | none => rfl
      | some n => exact congrArg (Option.map some) (word32?_eq_some_iff.mpr rfl)
  | optionalWord64 =>
      cases v with
      | none => rfl
      | some n => exact congrArg (Option.map some) (word64?_eq_some_iff.mpr rfl)
  | optionalText => cases v <;> rfl
  | flag => rfl

section Members

variable {α : Type} {ms : List (Member α)} {r : α}

theorem keys_write_sublist (ms : List (Member α)) (r : α) :
    ((ms.filterMap (·.write r)).map Prod.fst).Sublist (ms.map Member.key) := by
  induction ms with
  | nil => exact .slnil
  | cons m ms ih =>
      cases hm : m.codec.write (m.get r) with
      | none => simpa [Member.write, hm] using ih.cons m.key
      | some v => simpa [Member.write, hm] using ih.cons_cons m.key

theorem memberValue?_eq_none {key : String} (h : key ∉ ms.map Member.key) :
    memberValue? ((ms.filterMap (·.write r)).map memberJson) key = none := by
  have hfind : ((ms.filterMap (·.write r)).map memberJson).find? (·.1 == some key) = none := by
    rw [List.find?_eq_none]
    intro p hp heq
    obtain ⟨q, hq, rfl⟩ := List.mem_map.mp hp
    have hkey : q.1 = key := by simpa [memberJson] using heq
    exact h (hkey ▸ (keys_write_sublist ms r).subset (List.mem_map_of_mem hq))
  rw [memberValue?, hfind, Option.map_none]

/-- A member is found under its key exactly when it is written. -/
theorem memberValue?_written (hkeys : (ms.map Member.key).Nodup) {m : Member α} (hm : m ∈ ms) :
    memberValue? ((ms.filterMap (·.write r)).map memberJson) m.key =
      (m.codec.write (m.get r)).map Scalar.toJson := by
  induction ms with
  | nil => simp at hm
  | cons x ms ih =>
      obtain ⟨hx, hkeys⟩ := List.nodup_cons.mp hkeys
      rcases List.mem_cons.mp hm with rfl | hm
      · cases hv : m.codec.write (m.get r) with
        | none => simpa [Member.write, hv] using memberValue?_eq_none (r := r) hx
        | some v => simp [Member.write, hv, memberValue?, memberJson]
      · have hne : x.key ≠ m.key := by
          intro heq
          exact hx (heq ▸ List.mem_map_of_mem hm)
        rw [← ih hkeys hm]
        cases hv : x.codec.write (x.get r) with
        | none => simp [Member.write, hv]
        | some v => simp [Member.write, hv, memberValue?, memberJson, hne]

/-- Members whose values are read as those of a record are set to them. -/
theorem foldlM_read {find : String → Option Json} (acc : α)
    (h : ∀ m ∈ ms, m.codec.read (find m.key) = some (m.get r)) :
    ms.foldlM (fun acc m => m.read find acc) acc =
      some (ms.foldl (fun acc m => m.set (m.get r) acc) acc) := by
  induction ms generalizing acc with
  | nil => rfl
  | cons m ms ih =>
      obtain ⟨hm, hms⟩ := List.forall_mem_cons.mp h
      have hread : m.read find acc = some (m.set (m.get r) acc) := by
        rw [Member.read, hm, Option.map_some]
      rw [List.foldlM_cons, hread, List.foldl_cons]
      exact ih _ hms

end Members

namespace Kind

variable (k : Kind)

theorem nodup_memberKeys : k.memberKeys.Nodup := by
  cases k <;> decide

theorem foldl_set_get (r : k.Record) :
    k.members.foldl (fun acc m => m.set (m.get r) acc) k.blank = r := by
  cases k <;> rfl

theorem keysAreSound_toMembers (r : k.Record) :
    k.keysAreSound ((k.toMembers r).map memberJson) := by
  have hnodup : ((k.toMembers r).map Prod.fst).Nodup :=
    k.nodup_memberKeys.sublist (keys_write_sublist k.members r)
  have honce (key : String) :
      ((k.toMembers r).map memberJson).countP (·.1 == some key) ≤ 1 := by
    have hcount := List.nodup_iff_count_le_one.mp hnodup key
    simpa [List.countP_map, List.count, memberJson, Function.comp_def] using hcount
  have hall : ((k.toMembers r).map memberJson).all (·.1.isSome) := by simp [memberJson]
  rw [keysAreSound, hall, Bool.true_and, List.all_eq_true]
  intro key _
  exact decide_eq_true (honce key)

theorem record?_toMembers (r : k.Record) : k.record? (objectJson (k.toMembers r)) = some r := by
  have hvalues : ∀ m ∈ k.members, m.codec.read
      (memberValue? ((k.toMembers r).map memberJson) m.key) = some (m.get r) := by
    intro m hm
    rw [toMembers, memberValue?_written k.nodup_memberKeys hm, Codec.read_write]
  have hread := foldlM_read k.blank hvalues
  rw [objectJson, record?, ofMembers?, if_pos (k.keysAreSound_toMembers r)]
  rw [foldl_set_get] at hread
  exact hread

theorem records?_toMembers (rs : List k.Record) :
    k.records? (.list (rs.map fun r => objectJson (k.toMembers r))) = some rs := by
  rw [records?]
  induction rs with
  | nil => rfl
  | cons r rs ih => rw [List.map_cons, List.mapM_cons, record?_toMembers, ih]; rfl

theorem decode?_encode (rs : List k.Record) :
    k.decode? (Symbol.ofText (k.encode rs)) = some rs := by
  have hread := ofSymbols?_printObjects (rs.map k.toMembers)
  rw [decode?, Symbol.ofText, encode, String.toList_ofList, hread, List.map_map]
  exact k.records?_toMembers rs

/-- Records of any kind are read back from what is printed of them in JSON, given as a text or
as the bytes of that text. -/
theorem decode_render_json (rs : List k.Record) :
    k.decodeText? (render k .json rs) = some rs ∧
      k.decode? (Symbol.ofBytes (render k .json rs).toUTF8) = some rs := by
  constructor
  · exact k.decode?_encode rs
  · rw [Symbol.ofBytes_toUTF8]
    exact k.decode?_encode rs

end Kind

end ClusterQuery
