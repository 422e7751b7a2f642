import MiniVpn.Reality.WritePath
/-!
# Two ends in lockstep

A `RecordKeys` that seals and one that opens, built from the same key and
vector, step through the same sequence numbers. The sender stops at the last of
them: `checked_add` panics rather than let a nonce come back.
-/
open Lib

namespace MiniVpn

namespace Reality

namespace RecordKeys

/-! ## Sequences of records -/

/-- `seal` on one item after the other. -/
def seal_all (c : Crypto) (k : RecordKeys) : List (UInt8 × Bytes) → Option (List Bytes × RecordKeys)
  | [] => some ([], k)
  | item :: items => do
    let first ← k.seal_record c item.1 item.2
    let others ← seal_all c first.2 items
    return (first.1 :: others.1, others.2)

/-- `open` on one record after the other, each taken apart behind its header. -/
def open_all (c : Crypto) (k : RecordKeys) : List Bytes → Option (List (Except String (UInt8 × Bytes)) × RecordKeys)
  | [] => some ([], k)
  | record :: records => do
    let first ← k.open_record c (record.take 5) (record.drop 5)
    let others ← open_all c first.2 records
    return (first.1 :: others.1, others.2)

/-- The record of an item under a key and a nonce. -/
def recordUnder (c : Crypto) (key : Block 16) (nonce : Block 12) (item : UInt8 × Bytes) : Bytes :=
  let inner := item.2 ++ [item.1]
  record_header (inner.length + 16) ++ c.encrypt key nonce (record_header (inner.length + 16)) inner

/-- An item that has a type and whose record has a length field. -/
def Sealable (item : UInt8 × Bytes) : Prop := item.1 ≠ 0 ∧ item.2.length ≤ 65518

instance (item : UInt8 × Bytes) : Decidable (Sealable item) := inferInstanceAs (Decidable (_ ∧ _))

/-! ## One record -/

theorem length_record_header (n : Nat) : (record_header n).length = 5 := by
  simp [record_header]

/-- The state after `n` records. -/
def advance (k : RecordKeys) (n : Nat) : RecordKeys := { k with seq := k.seq + n }

theorem bump_eq {k : RecordKeys} (h : k.seq + 1 < 2 ^ 64) : k.bump = some (k.advance 1) := if_pos h

theorem seal_record_recordUnder (c : Crypto) (k : RecordKeys) (item : UInt8 × Bytes) :
    k.seal_record c item.1 item.2 =
      k.bump.map fun k' => (recordUnder c k.key (per_record_nonce k.iv k.seq) item, k') := by
  rw [seal_record]
  cases k.bump <;> rfl

/-- What `open` makes of a plaintext. -/
def typed (inner : Bytes) : Except String (UInt8 × Bytes) :=
  match (strip_zeros inner).getLast? with
  | none => .error "record 明文全零（无 content type）"
  | some content_type => .ok (content_type, (strip_zeros inner).dropLast)

theorem strip_zeros_append (inner : Bytes) (n : Nat) : strip_zeros (inner ++ List.replicate n 0) = strip_zeros inner := by
  rw [strip_zeros, List.reverse_append, List.reverse_replicate, List.dropWhile_append_of_pos (by simp)]
  rfl

theorem typed_append_zeros (inner : Bytes) (n : Nat) : typed (inner ++ List.replicate n 0) = typed inner := by
  rw [typed, strip_zeros_append, typed]

theorem typed_concat {typ : UInt8} (h : typ ≠ 0) (content : Bytes) : typed (content ++ [typ]) = .ok (typ, content) := by
  simp [typed, strip_zeros, h]

section
variable {c : Crypto} (hc : c.Lawful)
include hc

theorem open_record_encrypt (k : RecordKeys) (aad inner : Bytes) :
    k.open_record c aad (c.encrypt k.key (per_record_nonce k.iv k.seq) aad inner) =
      k.bump.map fun k' => (typed inner, k') := by
  rw [open_record, hc.decrypt_encrypt, typed]
  cases k.bump with
  | none => rfl
  | some k' =>
    simp only [Option.bind_eq_bind, Option.bind_some, Option.map_some]
    cases (strip_zeros inner).getLast? <;> rfl

/-- The length field of a record is the length of its ciphertext. -/
theorem length_recordUnder {item : UInt8 × Bytes} (h : Sealable item) (key : Block 16) (nonce : Block 12) :
    Wire.ofBe (((recordUnder c key nonce item).take 5).drop 3) = ((recordUnder c key nonce item).drop 5).length := by
  have hlen : item.2.length + 1 + 16 < 256 ^ 2 := by
    have := h.2
    omega
  rw [recordUnder, List.take_left' (length_record_header _), List.drop_left' (length_record_header _),
    hc.length_encrypt, List.length_append, List.length_singleton]
  exact Wire.ofBe_be_of_lt hlen

/-- The other end opens a record in the state it was sealed in, and both move on. -/
theorem open_recordUnder {item : UInt8 × Bytes} (h : Sealable item) (k : RecordKeys) :
    let record := recordUnder c k.key (per_record_nonce k.iv k.seq) item
    k.open_record c (record.take 5) (record.drop 5) = k.bump.map fun k' => (.ok item, k') := by
  intro record
  have hhead : record.take 5 = record_header ((item.2 ++ [item.1]).length + 16) :=
    List.take_left' (length_record_header _)
  have hbody : record.drop 5 = c.encrypt k.key (per_record_nonce k.iv k.seq)
      (record_header ((item.2 ++ [item.1]).length + 16)) (item.2 ++ [item.1]) := List.drop_left' (length_record_header _)
  rw [hhead, hbody, open_record_encrypt hc, typed_concat h.1]

end

/-! ## Whole sequences -/

/-- The records of a sequence of items. -/
def records (c : Crypto) (k : RecordKeys) (items : List (UInt8 × Bytes)) : List Bytes :=
  items.mapIdx fun i item => recordUnder c k.key (per_record_nonce k.iv (k.seq + i)) item

theorem records_cons (c : Crypto) (k : RecordKeys) (item : UInt8 × Bytes) (items : List (UInt8 × Bytes)) :
    records c k (item :: items) =
      recordUnder c k.key (per_record_nonce k.iv k.seq) item :: records c (k.advance 1) items := by
  simp [records, advance, Nat.add_assoc, Nat.add_comm 1]

theorem advance_advance (k : RecordKeys) (m n : Nat) : (k.advance m).advance n = k.advance (m + n) := by
  simp [advance, Nat.add_assoc]

theorem seal_all_eq {c : Crypto} {k : RecordKeys} {items : List (UInt8 × Bytes)}
    (h : k.seq + items.length < 2 ^ 64) : k.seal_all c items = some (records c k items, k.advance items.length) := by
  induction items generalizing k with
  | nil => rfl
  | cons item items ih =>
    rw [List.length_cons] at h
    have hnext : (k.advance 1).seq + items.length < 2 ^ 64 := by
      show k.seq + 1 + items.length < 2 ^ 64
      omega
    rw [seal_all, seal_record_recordUnder, bump_eq (by omega), records_cons, List.length_cons]
    simp only [Option.map_some, Option.bind_eq_bind, Option.bind_some, ih hnext, advance_advance, Nat.add_comm 1]
    rfl

/-- Sealing goes on as long as the sequence number does. -/
theorem seal_all_isSome_iff {c : Crypto} {k : RecordKeys} {items : List (UInt8 × Bytes)} (hk : k.seq < 2 ^ 64) :
    (k.seal_all c items).isSome = true ↔ k.seq + items.length < 2 ^ 64 := by
  induction items generalizing k with
  | nil => simpa [seal_all] using hk
  | cons item items ih =>
    rw [seal_all, seal_record_recordUnder, List.length_cons]
    by_cases hseq : k.seq + 1 < 2 ^ 64
    · have hrest := ih (k := k.advance 1) hseq
      rw [bump_eq hseq]
      simp only [Option.map_some, Option.bind_eq_bind, Option.bind_some, Option.pure_def, Option.isSome_bind,
        Option.isSome_some, Option.any_true, hrest]
      show k.seq + 1 + items.length < 2 ^ 64 ↔ _
      omega
    · rw [bump, if_neg hseq]
      simp
      omega

theorem open_all_records {c : Crypto} (hc : c.Lawful) {k : RecordKeys} {items : List (UInt8 × Bytes)}
    (hitems : ∀ item ∈ items, Sealable item) (h : k.seq + items.length < 2 ^ 64) :
    k.open_all c (records c k items) = some (items.map .ok, k.advance items.length) := by
  induction items generalizing k with
  | nil => rfl
  | cons item items ih =>
    rw [List.length_cons] at h
    have hnext : (k.advance 1).seq + items.length < 2 ^ 64 := by
      show k.seq + 1 + items.length < 2 ^ 64
      omega
    have hrest := ih (fun i hi => hitems i (List.mem_cons_of_mem _ hi)) hnext
    rw [records_cons, open_all, open_recordUnder hc (hitems item List.mem_cons_self), bump_eq (by omega),
      List.length_cons]
    simp only [Option.map_some, Option.bind_eq_bind, Option.bind_some, hrest, advance_advance, Nat.add_comm 1]
    rfl

/-! ## Nonces -/

theorem zipWith_xor_cancel {a b : Bytes} (h : b.length = a.length) :
    List.zipWith (· ^^^ ·) a (List.zipWith (· ^^^ ·) a b) = b := by
  induction a generalizing b with
  | nil => simp_all
  | cons x a ih =>
    cases b with
    | nil => simp at h
    | cons y b =>
      rw [List.zipWith_cons_cons, List.zipWith_cons_cons, ih (by simpa using h), ← UInt8.xor_assoc, UInt8.xor_self,
        UInt8.zero_xor]

theorem per_record_nonce_inj {iv : Block 12} {m n : Nat} (hm : m < 2 ^ 64) (hn : n < 2 ^ 64)
    (h : per_record_nonce iv m = per_record_nonce iv n) : m = n := by
  have hlen : (iv.1.take 4).length = (iv.1.take 4).length := rfl
  have hxor := (List.append_inj (Subtype.ext_iff.1 h) hlen).2
  have hback := congrArg (List.zipWith (· ^^^ ·) (iv.1.drop 4)) hxor
  rw [zipWith_xor_cancel (by simp [iv.2]), zipWith_xor_cancel (by simp [iv.2])] at hback
  have hnum := congrArg Wire.ofBe hback
  rwa [Wire.ofBe_be_of_lt hm, Wire.ofBe_be_of_lt hn] at hnum

theorem nodup_nonces (iv : Block 12) {n : Nat} (hn : n < 2 ^ 64) : ((List.range n).map (per_record_nonce iv)).Nodup := by
  refine List.Nodup.map_on ?_ List.nodup_range
  intro i hi j hj heq
  rw [List.mem_range] at hi hj
  exact per_record_nonce_inj (by omega) (by omega) heq

/-! ## Lockstep -/

/-- Sealing goes through for fewer than `2 ^ 64` records. Then the other end opens
the same items and is in the same state, every header has the length of its
ciphertext, and the `i`-th record has a nonce of its own. Padding is not seen. -/
theorem seal_open_lockstep {c : Crypto} (hc : c.Lawful) (key : Block 16) (iv : Block 12) {items : List (UInt8 × Bytes)}
    (hitems : ∀ item ∈ items, Sealable item) :
    (((new key iv).seal_all c items).isSome = true ↔ items.length < 2 ^ 64) ∧
    (∀ sealed k, (new key iv).seal_all c items = some (sealed, k) →
      (new key iv).open_all c sealed = some (items.map .ok, k) ∧
      (∀ record ∈ sealed, Wire.ofBe ((record.take 5).drop 3) = (record.drop 5).length) ∧
      (∀ i item, items[i]? = some item → sealed[i]? = some (recordUnder c key (per_record_nonce iv i) item)) ∧
      ((List.range items.length).map (per_record_nonce iv)).Nodup) ∧
    (∀ (k : RecordKeys) (inner aad aad' : Bytes) (n : Nat),
      k.open_record c aad (c.encrypt k.key (per_record_nonce k.iv k.seq) aad (inner ++ List.replicate n 0)) =
        k.open_record c aad' (c.encrypt k.key (per_record_nonce k.iv k.seq) aad' inner)) := by
  have hsome : ((new key iv).seal_all c items).isSome = true ↔ items.length < 2 ^ 64 := by
    have h := @seal_all_isSome_iff c (new key iv) items (Nat.two_pow_pos 64)
    rwa [show (new key iv).seq = 0 from rfl, Nat.zero_add] at h
  refine ⟨hsome, ?_, ?_⟩
  · intro sealed k hseal
    have hlen : items.length < 2 ^ 64 := hsome.1 (by rw [hseal]; rfl)
    have hseq : (new key iv).seq + items.length < 2 ^ 64 := by
      rwa [show (new key iv).seq = 0 from rfl, Nat.zero_add]
    obtain ⟨rfl, rfl⟩ := Prod.mk.inj (Option.some.inj ((seal_all_eq hseq).symm.trans hseal))
    refine ⟨open_all_records hc hitems hseq, ?_, ?_, nodup_nonces iv hlen⟩
    · intro record hrecord
      obtain ⟨i, hi, rfl⟩ := List.mem_mapIdx.1 hrecord
      exact length_recordUnder hc (hitems _ (List.getElem_mem hi)) _ _
    · intro i item hitem
      rw [records, List.getElem?_mapIdx, hitem, show (new key iv).seq = 0 from rfl, Nat.zero_add]
      rfl
  · intro k inner aad aad' n
    rw [open_record_encrypt hc, open_record_encrypt hc, typed_append_zeros]

end RecordKeys

namespace Sample

/-- The records of the source's own round trip, one without content and one that
ends in a zero. -/
def key : Block 16 := .ofNat 16 0x11111111111111111111111111111111
def iv : Block 12 := .ofNat 12 0x222222222222222222222222

def roundtrip : List (Sealed 16) := [
  ⟨key, per_record_nonce iv 0, record_header 32, Wire.utf8 "hello handshake" ++ [0x16],
    Wire.be 32 0xc190307be87844f52222ea22190900b582823a1d3b8d4cf8945648f465de8e84⟩,
  ⟨key, per_record_nonce iv 1, record_header 25, Wire.utf8 "app data" ++ [0x17],
    Wire.be 25 0x6b7cdf9124d77c868c4dd719ae866243e99c226721ac4ff2ad⟩,
  ⟨key, per_record_nonce iv 2, record_header 17, [0x17], Wire.be 17 0x3f0d37841e950ca5a5d37e0a71f446fe4b⟩,
  ⟨key, per_record_nonce iv 3, record_header 19, [0x01, 0x00, 0x15],
    Wire.be 19 0xfab158f14ae38d2d8f86d8d892fa1dbf13ed0f⟩]

def roundtrip_crypto : Crypto :=
  { stream_crypto with
    encrypt := Sealed.encrypt roundtrip
    decrypt := Sealed.decrypt roundtrip }

theorem distinct_roundtrip : Sealed.Distinct roundtrip := by decide +kernel

theorem lawful_roundtrip : roundtrip_crypto.Lawful where
  decrypt_encrypt := Sealed.decrypt_encrypt distinct_roundtrip
  length_encrypt := Sealed.length_encrypt distinct_roundtrip

def items : List (UInt8 × Bytes) :=
  [(0x16, Wire.utf8 "hello handshake"), (0x17, Wire.utf8 "app data"), (0x17, []), (0x15, [0x01, 0x00])]

end Sample

theorem RecordKeys.seal_open_lockstep_roundtrip :
    ∃ sealed k, (RecordKeys.new Sample.key Sample.iv).seal_all Sample.roundtrip_crypto Sample.items = some (sealed, k) ∧
      sealed.map List.length = [37, 30, 22, 24] ∧
      (RecordKeys.new Sample.key Sample.iv).open_all Sample.roundtrip_crypto sealed = some (Sample.items.map .ok, k) := by
  have hitems : Sample.items.all (fun item => decide (RecordKeys.Sealable item)) = true := by decide +kernel
  have hrun : (((RecordKeys.new Sample.key Sample.iv).seal_all Sample.roundtrip_crypto Sample.items).map fun r =>
      r.1.map List.length) = some [37, 30, 22, 24] := by decide +kernel
  obtain ⟨r, hr, hlen⟩ := Option.map_eq_some_iff.1 hrun
  refine ⟨r.1, r.2, hr, hlen, ?_⟩
  exact ((RecordKeys.seal_open_lockstep Sample.lawful_roundtrip Sample.key Sample.iv
    (fun item hitem => of_decide_eq_true (List.all_eq_true.1 hitems item hitem))).2.1 r.1 r.2 hr).1

end Reality

end MiniVpn
