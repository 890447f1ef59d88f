import Mathlib.Algebra.Ring.Int.Defs
import ClusterQuery.Proofs.Failure
import ClusterQuery.Proofs.Record.Decoding

/-!
# What the members of an object decide

A record is read from the members that its kind knows and from nothing else. An object is refused
when it lacks the required member, has a known one twice, or gives one a value that it does not
take; otherwise each attribute of the record is what the member of that name means, and absent where
there is none or a null. So neither the order of the members nor any unknown one among them counts,
and the list of the values of the leading members stands for the object that has these members.
-/

namespace ClusterQuery

open Json

/-- The value is an integer from the first bound on and below the second one. -/
def IsInteger (low high : Int) (v : Json) : Prop :=
  ∃ n, low ≤ n ∧ n < high ∧ v = .number (.integer n)

/-- The value is a string that denotes a text. -/
def IsText (v : Json) : Prop :=
  ∃ s, v = .string (some s)

/-- There is no value, or it is null. -/
def IsAbsent (v : Option Json) : Prop :=
  v = none ∨ v = some .null

/-- The values by which a flag is true. -/
def IsRaised (v : Option Json) : Prop :=
  v = some (.bool true) ∨ (∃ n, n ≠ 0 ∧ v = some (.number (.integer n))) ∨
    ∃ s ∈ ["1", "yes", "true"], v = some (.string (some s))

namespace Codec

variable {β : Type}

/-- The members that must be there. -/
def Required : Codec β → Prop
  | word32 => True
  | text => True
  | _ => False

/-- The values that a member takes. -/
def Takes : Codec β → Json → Prop
  | word32, v => IsInteger 0 (2 ^ 32) v
  | text, v => IsText v
  | optionalWord32, v => v = .null ∨ IsInteger 0 (2 ^ 32) v
  | optionalWord64, v => v = .null ∨ IsInteger 0 (2 ^ 64) v
  | optionalText, v => v = .null ∨ IsText v
  | flag, v => v = .null ∨ (∃ b, v = .bool b) ∨ IsInteger (-2 ^ 63) (2 ^ 63) v ∨ IsText v

/-- The attribute that is meant by a member with this value, or by a missing one. -/
def Means : Codec β → Option Json → β → Prop
  | word32, v, n => v = some (.number (.integer n.toNat))
  | text, v, s => v = some (.string (some s))
  | optionalWord32, v, none => IsAbsent v
  | optionalWord32, v, some n => v = some (.number (.integer n.toNat))
  | optionalWord64, v, none => IsAbsent v
  | optionalWord64, v, some n => v = some (.number (.integer n.toNat))
  | optionalText, v, none => IsAbsent v
  | optionalText, v, some s => v = some (.string (some s))
  | flag, v, b => (∀ j ∈ v, flag.Takes j) ∧ (b ↔ IsRaised v)

end Codec

theorem isInteger_iff_exists_word {α : Type} {size : Nat} {make : (n : Nat) → n < size → α}
    {toNat : α → Nat} (hw : IsWord size make toNat) {v : Json} :
    IsInteger 0 size v ↔ ∃ a, v = .number (.integer (toNat a)) := by
  constructor
  · rintro ⟨n, hlow, hhigh, rfl⟩
    refine ⟨make n.toNat (by omega), ?_⟩
    rw [hw.toNat_make, Int.toNat_of_nonneg hlow]
  · rintro ⟨a, rfl⟩
    have hlt := hw.toNat_lt a
    exact ⟨toNat a, by omega, by omega, rfl⟩

theorem isInteger_iff_word32 {v : Json} :
    IsInteger 0 (2 ^ 32) v ↔ ∃ n : UInt32, v = .number (.integer n.toNat) :=
  isInteger_iff_exists_word isWord32

theorem isInteger_iff_word64 {v : Json} :
    IsInteger 0 (2 ^ 64) v ↔ ∃ n : UInt64, v = .number (.integer n.toNat) :=
  isInteger_iff_exists_word isWord64

theorem text?_eq_some_iff {v : Json} {s : String} : text? v = some s ↔ v = .string (some s) := by
  constructor
  · intro h
    unfold text? at h
    split at h
    · cases h
      rfl
    · contradiction
  · rintro rfl
    rfl

theorem optional_eq_some_none_iff {α : Type} {read : Json → Option α} {v : Option Json} :
    optional read v = some none ↔ IsAbsent v := by
  unfold optional
  split
  · simp [IsAbsent]
  · simp [IsAbsent]
  · next j hj => simpa [IsAbsent] using hj

theorem optional_eq_some_some_iff {α : Type} {read : Json → Option α} (hnull : read .null = none)
    {v : Option Json} {a : α} :
    optional read v = some (some a) ↔ ∃ j, v = some j ∧ read j = some a := by
  unfold optional
  split
  · simp
  · simp [hnull]
  · simp

theorem fitsInt64_iff {n : Int} : fitsInt64 n ↔ -2 ^ 63 ≤ n ∧ n < 2 ^ 63 := by
  rw [fitsInt64, Bool.and_eq_true, decide_eq_true_eq, decide_eq_true_eq]
  omega

theorem flag?_eq_some_iff {v : Json} {b : Bool} :
    flag? v = some b ↔ v ≠ .null ∧ Codec.flag.Takes v ∧ (b ↔ IsRaised (some v)) := by
  cases v with
  | null => simp [flag?]
  | bool c => cases b <;> cases c <;> simp [flag?, Codec.Takes, IsRaised]
  | number n =>
      cases n with
      | real => simp [flag?, Codec.Takes, IsInteger, IsText]
      | integer n =>
          have htakes : Codec.flag.Takes (.number (.integer n)) ↔ fitsInt64 n := by
            simp [Codec.Takes, IsInteger, IsText, fitsInt64_iff]
          have hraised : IsRaised (some (.number (.integer n))) ↔ n ≠ 0 := by simp [IsRaised]
          rw [htakes, hraised]
          by_cases h : fitsInt64 n
          · cases b <;> simp [flag?, h]
          · simp [flag?, h]
  | string t =>
      cases t with
      | none => simp [flag?, Codec.Takes, IsInteger, IsText]
      | some s => cases b <;> simp [flag?, Codec.Takes, IsInteger, IsText, IsRaised]
  | list _ | object _ => simp [flag?, Codec.Takes, IsInteger, IsText]

namespace Codec

variable {β : Type}

theorem read_eq_some_iff {codec : Codec β} {v : Option Json} {b : β} :
    codec.read v = some b ↔ codec.Means v b := by
  cases codec with
  | word32 => simp [read, Means, Option.bind_eq_some_iff, word32?_eq_some_iff]
  | text => simp [read, Means, Option.bind_eq_some_iff, text?_eq_some_iff]
  | optionalWord32 =>
      cases b with
      | none => exact optional_eq_some_none_iff
      | some n => exact (optional_eq_some_some_iff rfl).trans (by simp [Means, word32?_eq_some_iff])
  | optionalWord64 =>
      cases b with
      | none => exact optional_eq_some_none_iff
      | some n => exact (optional_eq_some_some_iff rfl).trans (by simp [Means, word64?_eq_some_iff])
  | optionalText =>
      cases b with
      | none => exact optional_eq_some_none_iff
      | some s => exact (optional_eq_some_some_iff rfl).trans (by simp [Means, text?_eq_some_iff])
  | flag =>
      match v with
      | none => simp [read, optional, Means, IsRaised, eq_comm]
      | some .null => simp [read, optional, Means, IsRaised, Takes, eq_comm]
      | some (.bool _) | some (.number _) | some (.string _) | some (.list _) | some (.object _) =>
          simp [read, optional, Means, flag?_eq_some_iff]

/-- A member takes the values by which some attribute is meant. -/
theorem takes_iff {codec : Codec β} {j : Json} : codec.Takes j ↔ ∃ b, codec.Means (some j) b := by
  cases codec with
  | word32 => simp only [Takes, Means, isInteger_iff_word32, Option.some.injEq]
  | text => simp [Takes, Means, IsText]
  | optionalWord32 =>
      rw [Takes, isInteger_iff_word32]
      simp [Means, Option.exists, IsAbsent]
  | optionalWord64 =>
      rw [Takes, isInteger_iff_word64]
      simp [Means, Option.exists, IsAbsent]
  | optionalText => simp [Takes, Means, Option.exists, IsAbsent, IsText]
  | flag =>
      constructor
      · intro h
        by_cases hraised : IsRaised (some j)
        · exact ⟨true, by simpa using h, by simp [hraised]⟩
        · exact ⟨false, by simpa using h, by simp [hraised]⟩
      · rintro ⟨b, h, -⟩
        exact h j rfl

theorem required_iff {codec : Codec β} : codec.Required ↔ ¬∃ b, codec.Means none b := by
  cases codec with
  | word32 | text => simp [Required, Means]
  | optionalWord32 | optionalWord64 | optionalText =>
      simp only [Required, false_iff, not_not]
      exact ⟨none, .inl rfl⟩
  | flag =>
      simp only [Required, false_iff, not_not]
      exact ⟨false, by simp [Means, IsRaised]⟩

theorem read_eq_none_iff {codec : Codec β} {v : Option Json} : codec.read v = none ↔
    (v = none ∧ codec.Required) ∨ ∃ j, v = some j ∧ ¬codec.Takes j := by
  have hnone : codec.read v = none ↔ ¬∃ b, codec.Means v b := by
    simp only [← read_eq_some_iff, Option.eq_none_iff_forall_ne_some, not_exists]
  rw [hnone]
  cases v with
  | none => simp [required_iff]
  | some j => simp [takes_iff]

end Codec

section Fold

variable {α : Type} {ms : List (Member α)} {find : String → Option Json} {acc r : α}

/-- What no member of the list sets is not changed by reading them. -/
theorem view_of_foldlM_read {γ : Type} (view : α → γ)
    (hview : ∀ m ∈ ms, ∀ v r, view (m.set v r) = view r)
    (h : ms.foldlM (fun acc m => m.read find acc) acc = some r) : view r = view acc := by
  induction ms generalizing acc with
  | nil =>
      cases h
      rfl
  | cons m ms ih =>
      obtain ⟨hm, hms⟩ := List.forall_mem_cons.mp hview
      rw [List.foldlM_cons, Option.bind_eq_bind, Option.bind_eq_some_iff] at h
      obtain ⟨next, hnext, hrest⟩ := h
      obtain ⟨v, -, rfl⟩ := Option.map_eq_some_iff.mp hnext
      rw [ih hms hrest, hm]

/-- Each member of what has been read holds the value that was read for it, since no later one
changes it. -/
theorem read_of_foldlM_read (hset : ∀ m ∈ ms, ∀ v r, m.get (m.set v r) = v)
    (hlater : ms.Pairwise fun m m' => ∀ v r, m.get (m'.set v r) = m.get r)
    (h : ms.foldlM (fun acc m => m.read find acc) acc = some r) :
    ∀ m ∈ ms, m.codec.read (find m.key) = some (m.get r) := by
  induction ms generalizing acc with
  | nil => simp
  | cons m ms ih =>
      obtain ⟨hm, hms⟩ := List.forall_mem_cons.mp hset
      obtain ⟨hlater, hlaters⟩ := List.pairwise_cons.mp hlater
      rw [List.foldlM_cons, Option.bind_eq_bind, Option.bind_eq_some_iff] at h
      obtain ⟨next, hnext, hrest⟩ := h
      obtain ⟨v, hv, rfl⟩ := Option.map_eq_some_iff.mp hnext
      have hkept : m.get r = v := by rw [view_of_foldlM_read m.get hlater hrest, hm]
      exact List.forall_mem_cons.mpr ⟨by rw [hv, hkept], ih hms hlaters hrest⟩

theorem foldlM_read_eq_none_iff : ms.foldlM (fun acc m => m.read find acc) acc = none ↔
    ∃ m ∈ ms, m.codec.read (find m.key) = none := by
  induction ms generalizing acc with
  | nil => simp
  | cons m ms ih =>
      rw [List.foldlM_cons]
      cases hv : m.codec.read (find m.key) with
      | none => simp [Member.read, hv]
      | some v => simpa [Member.read, hv] using ih

end Fold

/-- The members of an object all of whose keys denote texts. -/
def keyed (ms : List (String × Json)) : List (Option String × Json) :=
  ms.map fun m => (some m.1, m.2)

section Lookup

variable {ms : List (String × Json)} {key : String}

theorem memberValue?_keyed : memberValue? (keyed ms) key = ms.lookup key := by
  induction ms with
  | nil => rfl
  | cons m ms ih =>
      obtain ⟨name, v⟩ := m
      by_cases h : name = key
      · subst h
        simp [memberValue?, keyed]
      · have hbeq : (key == name) = false := beq_false_of_ne (Ne.symm h)
        rw [List.lookup_cons, hbeq, ← ih]
        simp [memberValue?, keyed, h]

theorem lookup_eq_none_iff_not_mem : ms.lookup key = none ↔ key ∉ ms.map Prod.fst := by
  simp only [List.lookup_eq_none_iff, bne_iff_ne, List.mem_map, not_exists, not_and]
  exact forall₂_congr fun m _ => ne_comm

/-- A key that stands at most once has the one value that stands with it. -/
theorem lookup_eq_some_iff_mem (h : (ms.map Prod.fst).count key ≤ 1) {v : Json} :
    ms.lookup key = some v ↔ (key, v) ∈ ms := by
  induction ms with
  | nil => simp
  | cons m ms ih =>
      obtain ⟨name, w⟩ := m
      by_cases hname : name = key
      · subst hname
        have hrest : name ∉ ms.map Prod.fst := by
          rw [← List.count_eq_zero]
          simpa using h
        have hmem : (name, v) ∉ ms := fun hv => hrest (List.mem_map_of_mem hv)
        simp [hmem, eq_comm]
      · have hbeq : (key == name) = false := beq_false_of_ne (Ne.symm hname)
        rw [List.map_cons, List.count_cons_of_ne hname] at h
        rw [List.lookup_cons, hbeq, List.mem_cons, ← ih h]
        simp [Ne.symm hname]

end Lookup

namespace Kind

variable (k : Kind)

theorem get_set : ∀ m ∈ k.members, ∀ v r, m.get (m.set v r) = v := by
  cases k <;> simp [members, VirtualMachine.members, Container.members, Disk.members,
    Volume.members]

theorem get_set_later : k.members.Pairwise fun m m' => ∀ v r, m.get (m'.set v r) = m.get r := by
  cases k <;> simp [members, VirtualMachine.members, Container.members, Disk.members,
    Volume.members]

/-- Only the first member of a kind is required. -/
theorem required_iff_head :
    ∀ m ∈ k.members, m.codec.Required ↔ k.memberKeys.head? = some m.key := by
  cases k <;> simp [members, memberKeys, VirtualMachine.members, Container.members, Disk.members,
    Volume.members, Codec.Required]

theorem foldlM_read_eq_some_iff {find : String → Option Json} {r : k.Record} :
    k.members.foldlM (fun acc m => m.read find acc) k.blank = some r ↔
      ∀ m ∈ k.members, m.codec.Means (find m.key) (m.get r) := by
  simp only [← Codec.read_eq_some_iff]
  constructor
  · exact read_of_foldlM_read k.get_set k.get_set_later
  · intro h
    rw [foldlM_read k.blank h, foldl_set_get]

/-- The members that the kind knows. -/
def known (ms : List (String × Json)) : List (String × Json) :=
  ms.filter fun m => m.1 ∈ k.memberKeys

/-- The same known members, in any order and with any unknown ones among them. -/
def SameKnown (ms ms' : List (String × Json)) : Prop :=
  (k.known ms).Perm (k.known ms')

/-- No known member stands twice, and each attribute of the record is what its member means. -/
structure Describes (ms : List (String × Json)) (r : k.Record) : Prop where
  once : ∀ key ∈ k.memberKeys, (ms.map Prod.fst).count key ≤ 1
  means : ∀ m ∈ k.members, m.codec.Means (ms.lookup m.key) (m.get r)

/-- What can be wrong with the members of an object. -/
inductive Refuses (ms : List (String × Json)) : Prop
  | lacksFirst (key : String) (hkey : k.memberKeys.head? = some key)
      (hlacks : key ∉ ms.map Prod.fst)
  | repeatsKnown (key : String) (hkey : key ∈ k.memberKeys)
      (hrepeats : 2 ≤ (ms.map Prod.fst).count key)
  | notTaken (m : Member k.Record) (hm : m ∈ k.members) (v : Json) (hv : (m.key, v) ∈ ms)
      (htakes : ¬m.codec.Takes v)

/-- The ways to write a record with these members: as an object, or as the list of the values of
the leading members of the kind. -/
inductive WrittenAs : Json → List (String × Json) → Prop
  | object (ms : List (String × Json)) : WrittenAs (.object (keyed ms)) ms
  | values (vs : List Json) (h : vs.length ≤ k.memberKeys.length) :
      WrittenAs (.list vs) (k.memberKeys.zip vs)

/-- The text is a list of records with these members. -/
def Writes (symbols : List Symbol) (objects : List (List (String × Json))) : Prop :=
  ∃ items, Json.ofSymbols? symbols = some (.list items) ∧
    List.Forall₂ k.WrittenAs items objects

variable {k} {ms ms' : List (String × Json)} {r : k.Record}

theorem keysAreSound_keyed : k.keysAreSound (keyed ms) ↔
    ∀ key ∈ k.memberKeys, (ms.map Prod.fst).count key ≤ 1 := by
  have hcount (key : String) :
      (keyed ms).countP (·.1 == some key) = (ms.map Prod.fst).count key := by
    simp [keyed, List.count, List.countP_map, Function.comp_def]
  have hkeys : (keyed ms).all (·.1.isSome) := by simp [keyed]
  simp only [keysAreSound, hkeys, hcount, Bool.true_and, List.all_eq_true, decide_eq_true_eq]

theorem ofMembers?_eq_some_iff : k.ofMembers? (keyed ms) = some r ↔ k.Describes ms r := by
  rw [ofMembers?]
  split
  · next h =>
      rw [foldlM_read_eq_some_iff]
      simp only [memberValue?_keyed]
      exact ⟨fun hmeans => ⟨keysAreSound_keyed.mp h, hmeans⟩, fun hd => hd.means⟩
  · next h =>
      constructor
      · rintro ⟨⟩
      · intro hd
        exact absurd (keysAreSound_keyed.mpr hd.once) h

theorem key_mem_of_mem {m : Member k.Record} (hm : m ∈ k.members) : m.key ∈ k.memberKeys :=
  List.mem_map_of_mem hm

theorem ofMembers?_eq_none_iff : k.ofMembers? (keyed ms) = none ↔ k.Refuses ms := by
  by_cases h : ∀ key ∈ k.memberKeys, (ms.map Prod.fst).count key ≤ 1
  · rw [ofMembers?, if_pos (keysAreSound_keyed.mpr h), foldlM_read_eq_none_iff]
    simp only [memberValue?_keyed, Codec.read_eq_none_iff]
    constructor
    · rintro ⟨m, hm, ⟨hlookup, hrequired⟩ | ⟨v, hlookup, htakes⟩⟩
      · exact .lacksFirst m.key ((k.required_iff_head m hm).mp hrequired)
          (lookup_eq_none_iff_not_mem.mp hlookup)
      · have honce := h _ (key_mem_of_mem hm)
        exact .notTaken m hm v ((lookup_eq_some_iff_mem honce).mp hlookup) htakes
    · rintro (⟨key, hkey, hlacks⟩ | ⟨key, hkey, hrepeats⟩ | ⟨m, hm, v, hv, htakes⟩)
      · obtain ⟨m, hm, rfl⟩ := List.mem_map.mp (List.mem_of_head? hkey)
        exact ⟨m, hm, .inl ⟨lookup_eq_none_iff_not_mem.mpr hlacks,
          (k.required_iff_head m hm).mpr hkey⟩⟩
      · have honce := h key hkey
        omega
      · have honce := h _ (key_mem_of_mem hm)
        exact ⟨m, hm, .inr ⟨v, (lookup_eq_some_iff_mem honce).mpr hv, htakes⟩⟩
  · rw [ofMembers?, if_neg (fun hsound => h (keysAreSound_keyed.mp hsound))]
    simp only [not_forall] at h
    obtain ⟨key, hkey, hcount⟩ := h
    exact ⟨fun _ => .repeatsKnown key hkey (by omega), fun _ => rfl⟩

theorem count_known {key : String} (hkey : key ∈ k.memberKeys) :
    ((k.known ms).map Prod.fst).count key = (ms.map Prod.fst).count key := by
  simp only [known, List.count, List.countP_map, List.countP_filter]
  apply List.countP_congr
  rintro ⟨name, v⟩ -
  simp only [Function.comp_apply, Bool.and_eq_true, beq_iff_eq, decide_eq_true_eq,
    and_iff_left_iff_imp]
  rintro rfl
  exact hkey

theorem describes_of_sameKnown (h : k.SameKnown ms ms') (hd : k.Describes ms r) :
    k.Describes ms' r := by
  have honce : ∀ key ∈ k.memberKeys, (ms'.map Prod.fst).count key ≤ 1 := by
    intro key hkey
    rw [← count_known hkey, ← (h.map Prod.fst).count_eq key, count_known hkey]
    exact hd.once key hkey
  refine ⟨honce, ?_⟩
  intro m hm
  have hkey := key_mem_of_mem hm
  have hlookup : ms'.lookup m.key = ms.lookup m.key := by
    ext v
    rw [lookup_eq_some_iff_mem (honce _ hkey), lookup_eq_some_iff_mem (hd.once _ hkey)]
    have hknown : (m.key, v) ∈ k.known ms' ↔ (m.key, v) ∈ k.known ms := h.mem_iff.symm
    simpa [known, hkey] using hknown
  rw [hlookup]
  exact hd.means m hm

theorem ofMembers?_congr (h : k.SameKnown ms ms') :
    k.ofMembers? (keyed ms) = k.ofMembers? (keyed ms') := by
  ext r
  rw [ofMembers?_eq_some_iff, ofMembers?_eq_some_iff]
  exact ⟨describes_of_sameKnown h, describes_of_sameKnown h.symm⟩

theorem record?_of_writtenAs {item : Json} (h : k.WrittenAs item ms) :
    k.record? item = k.ofMembers? (keyed ms) := by
  cases h with
  | object => rfl
  | values vs h =>
      rw [record?, if_pos h, leadingMembers, keyed, List.zip_map_left]
      rfl

theorem decode?_of_writes {symbols : List Symbol} {objects : List (List (String × Json))}
    (h : k.Writes symbols objects) :
    k.decode? symbols = objects.mapM fun ms => k.ofMembers? (keyed ms) := by
  obtain ⟨items, hitems, hwritten⟩ := h
  rw [decode?, hitems, Option.bind_some, records?]
  exact mapM_congr (hwritten.imp fun _ _ => record?_of_writtenAs)

/-- A text of records is refused exactly when something is wrong with the members of one of them,
and otherwise gives the records that these members describe. It gives the same as any other text
whose records have the same known members, be these in another order, with unknown ones among them
or written as a list of values. -/
theorem decode_by_known_members {symbols : List Symbol} {objects : List (List (String × Json))}
    (h : k.Writes symbols objects) :
    (k.decode? symbols = none ↔ ∃ ms ∈ objects, k.Refuses ms) ∧
    (∀ rs, k.decode? symbols = some rs ↔ List.Forall₂ k.Describes objects rs) ∧
    ∀ symbols' objects', k.Writes symbols' objects' → List.Forall₂ k.SameKnown objects objects' →
      k.decode? symbols' = k.decode? symbols := by
  rw [decode?_of_writes h]
  refine ⟨?_, ?_, ?_⟩
  · rw [mapM_eq_none_iff]
    simp only [ofMembers?_eq_none_iff]
  · intro rs
    rw [mapM_eq_some_iff]
    simp only [ofMembers?_eq_some_iff]
  · intro symbols' objects' h' hsame
    rw [decode?_of_writes h']
    exact (mapM_congr (hsame.imp fun _ _ => ofMembers?_congr)).symm

/-- The second text has the members of its first record in another order, its second record as an
object, and an unknown member that stands twice. -/
theorem decode_by_known_members_reordered :
    let vmid : Int → String × Json := fun n => ("vmid", .number (.integer n))
    let objects : List (List (String × Json)) :=
      [[("x", .list [.number .real]), vmid 7, ("tags", .null)],
        container.memberKeys.zip [.number (.integer 8), .string (some "a")]]
    let symbols := Symbol.ofText
      "[\x7b\"x\": [1e999], \"vmid\": 7, \"tags\": null\x7d, [8, \"a\"]]"
    let symbols' := Symbol.ofText
      "[\x7b\"tags\":null,\"vmid\":7\x7d,\x7b\"y\":[],\"name\":\"a\",\"y\":1,\"vmid\":8\x7d]"
    container.Writes symbols objects ∧ container.decode? symbols' = container.decode? symbols ∧
      ∃ rs, container.decode? symbols = some rs ∧ List.Forall₂ container.Describes objects rs := by
  intro vmid objects symbols symbols'
  have htext : Json.ofSymbols? symbols = some (.list [.object (keyed
      [("x", .list [.number .real]), vmid 7, ("tags", .null)]),
      .list [.number (.integer 8), .string (some "a")]]) := rfl
  have htext' : Json.ofSymbols? symbols' = some (.list [.object (keyed [("tags", .null), vmid 7]),
      .object (keyed [("y", .list []), ("name", .string (some "a")),
        ("y", .number (.integer 1)), vmid 8])]) := rfl
  have hwrites : container.Writes symbols objects :=
    ⟨_, htext, .cons (.object _) (.cons (.values _ (by decide)) .nil)⟩
  have hwrites' : container.Writes symbols' _ :=
    ⟨_, htext', .cons (.object _) (.cons (.object _) .nil)⟩
  have hsame : List.Forall₂ container.SameKnown objects [[("tags", .null), vmid 7],
      [("y", .list []), ("name", .string (some "a")), ("y", .number (.integer 1)), vmid 8]] :=
    .cons (.swap _ _ _) (.cons (.swap _ _ _) .nil)
  have hread : container.decode? symbols =
      some [{ vmid := 7 }, { vmid := 8, name := some "a" }] := by
    decide
  obtain ⟨-, hdescribes, hsames⟩ := decode_by_known_members hwrites
  exact ⟨hwrites, hsames _ _ hwrites' hsame, _, hread, (hdescribes _).mp hread⟩

end Kind

end ClusterQuery
