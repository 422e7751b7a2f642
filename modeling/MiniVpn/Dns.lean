import MiniVpn.Packets
/-!
# DNS messages

`dns.rs`: the query parser and the response builder of the fake-IP path. The
outer `Option` of `parse_query` is `none` where an index is out of range; the
inner one is the source's own result.
-/
open Lib

namespace MiniVpn

namespace Dns

/-- `dns::DnsQuery`. The two fields the loop reads are those of `DnsQuery`. -/
structure Query extends DnsQuery where
  id : UInt16
  rd : Bool
  /-- The question section as it was received. -/
  question : Bytes
deriving DecidableEq, Repr

inductive Answer where
  | A (ip : Ipv4Addr) (ttl : UInt32)
  | NoData
deriving DecidableEq, Repr

/-- The QNAME loop: the labels, and the position behind the zero byte. -/
def read_labels (data : Bytes) (pos : Nat) (labels : List String) : Option (List String × Nat) :=
  match _hlen : data[pos]? with
  | none => none
  | some len =>
    if len = 0 then some (labels, pos + 1)
    -- A compression pointer or a reserved bit.
    else if len &&& 0xC0 ≠ 0 then none
    else
      match (Wire.slice data (pos + 1) (pos + 1 + len.toNat)).bind Wire.fromUtf8 with
      | none => none
      | some label => read_labels data (pos + 1 + len.toNat) (labels ++ [label])
termination_by data.length - pos
decreasing_by
  have := (List.getElem?_eq_some_iff.1 _hlen).1
  omega

/-- The rest of `parse_query`, once QDCOUNT is 1. -/
def parse_question (data : Bytes) (id : UInt16) (rd : Bool) : Option Query := do
  let (labels, pos) ← read_labels data 12 []
  let qtype ← u16_at data pos
  let question ← Wire.slice data 12 (pos + 4)
  return {
    id := id
    qname := ".".intercalate labels
    qtype := UInt16.ofNat qtype
    rd := rd
    question := question }

def parse_query (data : Bytes) : Option (Option Query) :=
  if data.length < 12 then some none
  else do
    let id ← u16_at data 0
    let flags ← u16_at data 2
    let rd := UInt16.ofNat flags &&& 0x0100 != 0
    let qdcount ← u16_at data 4
    if qdcount ≠ 1 then return none else return parse_question data (UInt16.ofNat id) rd

def build_response (q : Query) (answer : Answer) : Bytes :=
  let rd_bit : UInt16 := if q.rd then 0x0100 else 0
  let flags : UInt16 := 0x8000 ||| rd_bit
  let ancount := match answer with
    | .A .. => 1
    | .NoData => 0
  let v := Wire.be 2 q.id.toNat ++ Wire.be 2 flags.toNat ++ Wire.be 2 1 ++ Wire.be 2 ancount ++ Wire.be 2 0 ++
    Wire.be 2 0 ++ q.question
  match answer with
  | .A ip ttl =>
    -- The name is a pointer to the question's, at offset 12.
    v ++ [0xC0, 0x0C] ++ Wire.be 2 QTYPE_A.toNat ++ Wire.be 2 1 ++ Wire.be 4 ttl.toNat ++ Wire.be 2 4 ++
      Wire.be 4 ip.toNat
  | .NoData => v

/-! ## What a query is -/

/-- A label as it may stand in a name. -/
def IsLabel (label : String) : Prop := 1 ≤ (Wire.utf8 label).length ∧ (Wire.utf8 label).length ≤ 63

/-- A name on the wire. -/
def nameField : List String → Bytes
  | [] => [0]
  | label :: labels => UInt8.ofNat (Wire.utf8 label).length :: (Wire.utf8 label ++ nameField labels)

/-- The question section, and the fields of `q` that are read from it. -/
structure IsQuestion (labels : List String) (qclass : UInt16) (q : Query) : Prop where
  valid : ∀ label ∈ labels, IsLabel label
  qname : q.qname = ".".intercalate labels
  question : q.question = nameField labels ++ Wire.be 2 q.qtype.toNat ++ Wire.be 2 qclass.toNat

/-- A message with one question: the header, of which the last three counts are
not read, the question, and anything behind it. -/
def IsQuery (data : Bytes) (q : Query) : Prop :=
  ∃ (labels : List String) (flags qclass : UInt16) (counts tail : Bytes), IsQuestion labels qclass q ∧
    q.rd = (flags &&& 0x0100 != 0) ∧ counts.length = 6 ∧
    data = Wire.be 2 q.id.toNat ++ Wire.be 2 flags.toNat ++ Wire.be 2 1 ++ counts ++ q.question ++ tail

/-! ## Parsing reads the layout and never fails -/

theorem and_C0_eq_zero_iff (len : UInt8) : len &&& 0xC0 = 0 ↔ len.toNat ≤ 63 := by
  have h : ∀ n : Fin 256, UInt8.ofNat n &&& 0xC0 = 0 ↔ n.val ≤ 63 := by decide +kernel
  simpa using h ⟨len.toNat, len.toNat_lt⟩

/-- A valid label's length byte is neither zero nor a pointer. -/
theorem IsLabel.len {label : String} (h : IsLabel label) : (UInt8.ofNat (Wire.utf8 label).length).toNat =
    (Wire.utf8 label).length ∧ UInt8.ofNat (Wire.utf8 label).length ≠ 0 ∧
    UInt8.ofNat (Wire.utf8 label).length &&& 0xC0 = 0 := by
  obtain ⟨hpos, hle⟩ := h
  have hnat : (UInt8.ofNat (Wire.utf8 label).length).toNat = (Wire.utf8 label).length := by
    rw [UInt8.toNat_ofNat', Nat.mod_eq_of_lt (by omega)]
  refine ⟨hnat, fun h0 => ?_, (and_C0_eq_zero_iff _).2 (by omega)⟩
  rw [h0, UInt8.toNat_zero] at hnat
  omega

theorem read_labels_nameField {labels : List String} (h : ∀ label ∈ labels, IsLabel label) {data rest : Bytes} {pos : Nat}
    (hdata : data.drop pos = nameField labels ++ rest) (acc : List String) :
    read_labels data pos acc = some (acc ++ labels, pos + (nameField labels).length) := by
  induction labels generalizing pos acc with
  | nil =>
    rw [read_labels]
    split
    · rename_i hnone
      simp [Wire.getElem?_of_drop hdata] at hnone
    · rename_i len hlen
      obtain rfl : 0 = len := by simpa [Wire.getElem?_of_drop hdata] using hlen
      simp [nameField]
  | cons label labels ih =>
    have hlabel := h label List.mem_cons_self
    obtain ⟨hnat, h0, hC0⟩ := hlabel.len
    have hpos : pos < data.length := by
      by_contra hge
      rw [List.drop_eq_nil_of_le (by omega)] at hdata
      simp [nameField] at hdata
    have hdrop : data.drop (pos + 1) = Wire.utf8 label ++ (nameField labels ++ rest) := by
      rw [← List.drop_drop, hdata]
      simp [nameField]
    have hslice := Wire.slice_of_drop hdrop (by omega)
    have hnext : data.drop (pos + 1 + (Wire.utf8 label).length) = nameField labels ++ rest := by
      rw [← List.drop_drop, hdrop, List.drop_left']
      rfl
    rw [read_labels]
    split
    · rename_i hnone
      simp [Wire.getElem?_of_drop hdata] at hnone
    · rename_i len hlen
      obtain rfl : _ = len := by simpa [Wire.getElem?_of_drop hdata] using hlen
      rw [if_neg h0, if_neg (by simp [hC0]), hnat, hslice, Option.bind_some, Wire.fromUtf8_utf8]
      simp only
      rw [ih (fun l hl => h l (List.mem_cons_of_mem _ hl)) hnext]
      simp [nameField]
      omega

theorem exists_nameField_of_read_labels {data : Bytes} {pos pos' : Nat} {acc ls : List String}
    (h : read_labels data pos acc = some (ls, pos')) : ∃ labels, ls = acc ++ labels ∧ (∀ label ∈ labels, IsLabel label) ∧
    pos' = pos + (nameField labels).length ∧ data.drop pos = nameField labels ++ data.drop pos' := by
  fun_induction read_labels data pos acc with
  | case1 => cases h
  | case2 pos acc hlen =>
    obtain ⟨rfl, rfl⟩ := Prod.mk.inj (Option.some.inj h)
    obtain ⟨hpos, hget⟩ := List.getElem?_eq_some_iff.1 hlen
    exact ⟨[], by simp, by simp, rfl, by rw [List.drop_eq_getElem_cons hpos, hget]; rfl⟩
  | case3 => cases h
  | case4 => cases h
  | case5 pos acc len hlen h0 hC0 label hlabel ih =>
    obtain ⟨bs, hslice, hlabel⟩ := Option.bind_eq_some_iff.1 hlabel
    obtain rfl := Wire.fromUtf8_eq_some_iff.1 hlabel
    obtain ⟨hpos, hget⟩ := List.getElem?_eq_some_iff.1 hlen
    obtain ⟨hbs, hdrop⟩ := Wire.drop_of_slice hslice
    obtain ⟨labels, rfl, hvalid, rfl, hrest⟩ := ih h
    have hle : len.toNat ≤ 63 := (and_C0_eq_zero_iff len).1 (by simpa using hC0)
    have hne : len.toNat ≠ 0 := fun hz => h0 (UInt8.toNat_inj.1 hz)
    have heq : (Wire.utf8 label).length = len.toNat := by omega
    refine ⟨label :: labels, by simp, ?_, ?_, ?_⟩
    · rw [List.forall_mem_cons]
      exact ⟨⟨by omega, by omega⟩, hvalid⟩
    · simp [nameField]
      omega
    · rw [List.drop_eq_getElem_cons hpos, hget, hdrop, hrest, nameField, heq, UInt8.ofNat_toNat]
      simp

theorem u16_at_eq_some_iff {buf : Bytes} {i n : Nat} :
    u16_at buf i = some n ↔ n < 65536 ∧ ∃ rest, buf.drop i = Wire.be 2 n ++ rest := by
  constructor
  · intro h
    simp only [u16_at, Option.bind_eq_bind, Option.bind_eq_some_iff, Option.pure_def, Option.some.injEq] at h
    obtain ⟨a, ha, b, hb, rfl⟩ := h
    obtain ⟨hi, rfl⟩ := List.getElem?_eq_some_iff.1 ha
    obtain ⟨hi', rfl⟩ := List.getElem?_eq_some_iff.1 hb
    refine ⟨Wire.ofBe_pair_lt _ _, buf.drop (i + 1 + 1), ?_⟩
    rw [show Wire.be 2 (Wire.ofBe [buf[i], buf[i + 1]]) = [buf[i], buf[i + 1]] from Wire.be_ofBe [buf[i], buf[i + 1]],
      List.drop_eq_getElem_cons hi, List.drop_eq_getElem_cons hi']
    rfl
  · rintro ⟨hn, rest, h⟩
    have hdrop : buf.drop (i + 1) = UInt8.ofNat n :: rest := by
      rw [← List.drop_drop, h]
      rfl
    rw [u16_at, Wire.getElem?_of_drop h, Wire.getElem?_of_drop hdrop]
    exact congrArg some (Wire.ofBe_be_of_lt (n := 2) hn)

theorem u16_at_append {pre rest : Bytes} {i n : Nat} (hi : pre.length = i) (hn : n < 65536) :
    u16_at (pre ++ (Wire.be 2 n ++ rest)) i = some n :=
  u16_at_eq_some_iff.2 ⟨hn, rest, List.drop_left' hi⟩

theorem drop_of_u16_at {buf : Bytes} {i n : Nat} (h : u16_at buf i = some n) :
    n < 65536 ∧ buf.drop i = Wire.be 2 n ++ buf.drop (i + 2) := by
  obtain ⟨hn, rest, hrest⟩ := u16_at_eq_some_iff.1 h
  refine ⟨hn, ?_⟩
  rw [← List.drop_drop, hrest, List.drop_left' (Wire.length_be 2 n)]

theorem parse_question_eq_some_iff {data : Bytes} {id : UInt16} {rd : Bool} {q : Query} (hlen : 12 ≤ data.length) :
    parse_question data id rd = some q ↔ q.id = id ∧ q.rd = rd ∧
      ∃ labels qclass tail, IsQuestion labels qclass q ∧ data.drop 12 = q.question ++ tail := by
  constructor
  · intro h
    simp only [parse_question, Option.bind_eq_bind, Option.bind_eq_some_iff, Option.pure_def, Option.some.injEq] at h
    obtain ⟨⟨labels, pos⟩, hlabels, qtype, hqtype, question, hquestion, rfl⟩ := h
    obtain ⟨_, rfl, hvalid, rfl, hname⟩ := exists_nameField_of_read_labels hlabels
    obtain ⟨hlt, rest, hrest⟩ := u16_at_eq_some_iff.1 hqtype
    obtain ⟨hpos, hdrop⟩ := Wire.drop_of_slice hquestion
    -- QCLASS is not read, but the slice ends behind it.
    have heq := hdrop.symm.trans (hname.trans (congrArg _ hrest))
    have hsize := congrArg List.length heq
    simp only [List.length_append, Wire.length_be] at hsize hpos
    obtain ⟨c₁, c₀, tail, rfl⟩ : ∃ c₁ c₀ tail, rest = c₁ :: c₀ :: tail := by
      match rest, hsize with
      | [], hsize => simp at hsize; omega
      | [_], hsize => simp at hsize; omega
      | c₁ :: c₀ :: tail, _ => exact ⟨c₁, c₀, tail, rfl⟩
    have hquestion : question = nameField labels ++ Wire.be 2 qtype ++ [c₁, c₀] := by
      have heq : question ++ data.drop (12 + (nameField labels).length + 4)
          = (nameField labels ++ Wire.be 2 qtype ++ [c₁, c₀]) ++ tail := by simpa using heq
      refine (List.append_inj heq ?_).1
      simp only [List.length_append, Wire.length_be, List.length_cons, List.length_nil]
      omega
    refine ⟨rfl, rfl, labels, UInt16.ofNat (Wire.ofBe [c₁, c₀]), _, ⟨hvalid, rfl, ?_⟩, hdrop⟩
    rw [Wire.be_toNat_ofBe_pair, UInt16.toNat_ofNat', Nat.mod_eq_of_lt hlt]
    exact hquestion
  · rintro ⟨rfl, rfl, labels, qclass, tail, ⟨hvalid, hqname, hquestion⟩, hdata⟩
    have hname : data.drop 12 = nameField labels ++ (Wire.be 2 q.qtype.toNat ++ (Wire.be 2 qclass.toNat ++ tail)) := by
      simp [hdata, hquestion]
    have hqtype : u16_at data (12 + (nameField labels).length) = some q.qtype.toNat :=
      u16_at_eq_some_iff.2 ⟨q.qtype.toNat_lt, _, by rw [← List.drop_drop, hname, List.drop_left' rfl]⟩
    have hslice := Wire.slice_of_drop hdata hlen
    rw [show 12 + q.question.length = 12 + (nameField labels).length + 4 by simp [hquestion]; omega] at hslice
    simp only [parse_question, read_labels_nameField hvalid hname, hqtype, hslice, Option.bind_eq_bind, Option.bind_some,
      List.nil_append, Option.pure_def, ← hqname, UInt16.ofNat_toNat]

theorem exists_u16_at {buf : Bytes} {i : Nat} (h : i + 1 < buf.length) : ∃ n, u16_at buf i = some n := by
  rw [u16_at, List.getElem?_eq_getElem h, List.getElem?_eq_getElem (by omega : i < buf.length)]
  exact ⟨_, rfl⟩

/-- A message in terms of the three fields of its header that are read. -/
theorem isQuery_iff {data : Bytes} {id flags qdcount : Nat} (hlen : 12 ≤ data.length) (hid : u16_at data 0 = some id)
    (hflags : u16_at data 2 = some flags) (hqdcount : u16_at data 4 = some qdcount) (q : Query) :
    IsQuery data q ↔ qdcount = 1 ∧ q.id = UInt16.ofNat id ∧ q.rd = (UInt16.ofNat flags &&& 0x0100 != 0) ∧
      ∃ labels qclass tail, IsQuestion labels qclass q ∧ data.drop 12 = q.question ++ tail := by
  constructor
  · rintro ⟨labels, flags', qclass, counts, tail, hquestion, hrd, hcounts, rfl⟩
    simp only [List.append_assoc] at hid hflags hqdcount
    have hid := hid.symm.trans (@u16_at_append [] _ _ _ rfl q.id.toNat_lt)
    rw [u16_at_append (Wire.length_be ..) flags'.toNat_lt] at hflags
    rw [← List.append_assoc, u16_at_append (by simp) (by decide)] at hqdcount
    obtain rfl := Option.some.inj hid
    obtain rfl := Option.some.inj hflags
    obtain rfl := Option.some.inj hqdcount
    rw [UInt16.ofNat_toNat, UInt16.ofNat_toNat]
    refine ⟨rfl, rfl, hrd, labels, qclass, tail, hquestion, ?_⟩
    rw [List.append_assoc, List.drop_left']
    simp [hcounts]
  · rintro ⟨rfl, hqid, hrd, labels, qclass, tail, hquestion, hdrop⟩
    obtain ⟨hid', h0⟩ := drop_of_u16_at hid
    obtain ⟨hflags', h2⟩ := drop_of_u16_at hflags
    have h4 := (drop_of_u16_at hqdcount).2
    have h6 := List.take_append_drop 6 (data.drop 6)
    rw [List.drop_drop, hdrop] at h6
    refine ⟨labels, UInt16.ofNat flags, qclass, (data.drop 6).take 6, tail, hquestion, hrd, by simp; omega, ?_⟩
    rw [hqid, UInt16.toNat_ofNat', Nat.mod_eq_of_lt hid', UInt16.toNat_ofNat', Nat.mod_eq_of_lt hflags']
    simp only [List.append_assoc]
    rw [h6, ← h4, ← h2, ← h0]
    rfl

/-- What is accepted is a message with one question, and every such message is
accepted; no byte string makes an index go out of range. -/
theorem parse_query_spec (data : Bytes) : ∃ r, parse_query data = some r ∧ ∀ q, r = some q ↔ IsQuery data q := by
  by_cases hlen : data.length < 12
  · refine ⟨none, if_pos hlen, fun q => ⟨fun h => (by cases h), ?_⟩⟩
    rintro ⟨_, _, _, counts, _, _, _, hcounts, rfl⟩
    simp only [List.length_append, Wire.length_be] at hlen
    omega
  obtain ⟨id, hid⟩ := @exists_u16_at data 0 (by omega)
  obtain ⟨flags, hflags⟩ := @exists_u16_at data 2 (by omega)
  obtain ⟨qdcount, hqdcount⟩ := @exists_u16_at data 4 (by omega)
  simp only [parse_query, if_neg hlen, hid, hflags, hqdcount, Option.bind_eq_bind, Option.bind_some, Option.pure_def,
    isQuery_iff (Nat.le_of_not_lt hlen) hid hflags hqdcount]
  by_cases hq : qdcount = 1
  · rw [if_neg (by simp [hq])]
    exact ⟨_, rfl, fun q => by rw [parse_question_eq_some_iff (by omega)]; simp [hq]⟩
  · rw [if_pos hq]
    exact ⟨none, rfl, fun q => by simp [hq]⟩

/-- The parser accepts the messages with one question and no others, and reads
them as they are. -/
theorem parse_query_exact (data : Bytes) :
    (∃ r, parse_query data = some r) ∧ ∀ q, parse_query data = some (some q) ↔ IsQuery data q := by
  obtain ⟨r, hr, hq⟩ := parse_query_spec data
  refine ⟨⟨r, hr⟩, fun q => ?_⟩
  rw [hr, Option.some.injEq]
  exact hq q

/-! ## How a client reads a response

A reader of our own, for what the bytes of a response mean: names may be
compressed, and nothing may stand behind the last record. -/

/-- A resource record. -/
structure Record where
  name : List String
  rtype : UInt16
  rclass : UInt16
  ttl : UInt32
  rdata : Bytes
deriving DecidableEq, Repr

/-- A name: labels, or a pointer to labels. -/
def read_name (data : Bytes) (pos : Nat) : Option (List String × Nat) := do
  let b ← data[pos]?
  if b &&& 0xC0 = 0xC0 then
    let pointer ← u16_at data pos
    let name ← read_labels data (pointer % 0x4000) []
    return (name.1, pos + 2)
  else read_labels data pos []

def read_record (data : Bytes) (pos : Nat) : Option (Record × Nat) := do
  let name ← read_name data pos
  let pos := name.2
  let rtype ← u16_at data pos
  let rclass ← u16_at data (pos + 2)
  let ttl ← Wire.slice data (pos + 4) (pos + 8)
  let rdlength ← u16_at data (pos + 8)
  let rdata ← Wire.slice data (pos + 10) (pos + 10 + rdlength)
  return ({
    name := name.1
    rtype := UInt16.ofNat rtype
    rclass := UInt16.ofNat rclass
    ttl := UInt32.ofNat (Wire.ofBe ttl)
    rdata := rdata }, pos + 10 + rdlength)

/-- As many records as ANCOUNT says, up to the end of the message. -/
def read_records (data : Bytes) : Nat → Nat → Option (List Record)
  | 0, pos => if pos = data.length then some [] else none
  | n + 1, pos => do
    let r ← read_record data pos
    let rs ← read_records data n r.2
    return r.1 :: rs

/-- The answer section of a response to one question. -/
def answers (data : Bytes) : Option (List Record) := do
  let ancount ← u16_at data 6
  let name ← read_labels data 12 []
  read_records data ancount (name.2 + 4)

/-- The records an answer stands for. -/
def Answer.records (labels : List String) : Answer → List Record
  | .A ip ttl => [{ name := labels, rtype := QTYPE_A, rclass := 1, ttl := ttl, rdata := Wire.be 4 ip.toNat }]
  | .NoData => []

/-- The bytes of a record whose name is a pointer to offset 12. -/
def recordField (r : Record) : Bytes :=
  [0xC0, 0x0C] ++ (Wire.be 2 r.rtype.toNat ++ (Wire.be 2 r.rclass.toNat ++ (Wire.be 4 r.ttl.toNat ++
    (Wire.be 2 r.rdata.length ++ r.rdata))))

/-- What stands behind `n` bytes that a reader has passed. -/
theorem drop_append_of_drop {data front back : Bytes} {pos : Nat} (h : data.drop pos = front ++ back) {n : Nat}
    (hn : front.length = n) : data.drop (pos + n) = back := by
  rw [← List.drop_drop, h, List.drop_left' hn]

theorem le_length_of_drop {data front back : Bytes} {pos n : Nat} (h : data.drop pos = front ++ back)
    (hn : front.length = n + 1) : pos + (n + 1) ≤ data.length := by
  have hlen := congrArg List.length h
  rw [List.length_drop, List.length_append] at hlen
  omega

theorem read_record_recordField {data rest : Bytes} {pos n : Nat} {r : Record} (hrdata : r.rdata.length < 65536)
    (hname : read_labels data 12 [] = some (r.name, n)) (hdata : data.drop pos = recordField r ++ rest) :
    read_record data pos = some (r, pos + (recordField r).length) := by
  simp only [recordField, List.append_assoc] at hdata
  have h2 := drop_append_of_drop hdata (n := 2) rfl
  have h4 := drop_append_of_drop h2 (Wire.length_be ..)
  have h6 := drop_append_of_drop h4 (Wire.length_be ..)
  have h10 := drop_append_of_drop h6 (Wire.length_be ..)
  have h12 := drop_append_of_drop h10 (Wire.length_be ..)
  have hpointer : u16_at data pos = some 0xC00C := u16_at_eq_some_iff.2 ⟨by decide, _, hdata⟩
  have hread : read_name data pos = some (r.name, pos + 2) := by
    simp [read_name, Wire.getElem?_of_drop hdata, hpointer, hname]
  have httl := Wire.slice_of_drop h6 (le_length_of_drop h4 (Wire.length_be ..))
  have hslice := Wire.slice_of_drop h12 (le_length_of_drop h10 (Wire.length_be ..))
  rw [Wire.length_be] at httl
  simp only [read_record, hread, u16_at_eq_some_iff.2 ⟨r.rtype.toNat_lt, _, h2⟩,
    u16_at_eq_some_iff.2 ⟨r.rclass.toNat_lt, _, h4⟩, u16_at_eq_some_iff.2 ⟨hrdata, _, h10⟩, httl, hslice,
    Option.bind_eq_bind, Option.bind_some, Option.pure_def, UInt16.ofNat_toNat,
    Wire.ofBe_be_of_lt (n := 4) r.ttl.toNat_lt, UInt32.ofNat_toNat, Option.some.injEq, Prod.mk.injEq, true_and]
  simp [recordField]
  omega

/-- What `build_response` writes behind the question. -/
def Answer.field (answer : Answer) : Bytes := (answer.records []).flatMap recordField

theorem build_response_eq (q : Query) (answer : Answer) : build_response q answer =
    Wire.be 2 q.id.toNat ++ Wire.be 2 ((0x8000 ||| if q.rd then 0x0100 else 0 : UInt16)).toNat ++ Wire.be 2 1 ++
      Wire.be 2 (answer.records []).length ++ Wire.be 4 0 ++ (q.question ++ answer.field) := by
  cases answer <;> simp [build_response, Answer.field, Answer.records, recordField] <;> rfl

theorem drop_build_response (q : Query) (answer : Answer) :
    (build_response q answer).drop 12 = q.question ++ answer.field := by
  rw [build_response_eq, List.drop_left']
  simp

/-- The header of a response as a client reads it. -/
theorem header_build_response (q : Query) (answer : Answer) :
    u16_at (build_response q answer) 2 = some ((0x8000 ||| if q.rd then 0x0100 else 0 : UInt16)).toNat ∧
    u16_at (build_response q answer) 6 = some (answer.records []).length ∧
    u16_at (build_response q answer) 8 = some 0 ∧ u16_at (build_response q answer) 10 = some 0 := by
  have hcount : (answer.records []).length < 65536 := by cases answer <;> simp [Answer.records]
  have hzero : Wire.be 4 0 = Wire.be 2 0 ++ Wire.be 2 0 := rfl
  rw [build_response_eq, hzero]
  simp only [List.append_assoc]
  refine ⟨u16_at_append (by simp) (UInt16.toNat_lt _), ?_, ?_, ?_⟩
  · rw [← List.append_assoc, ← List.append_assoc]
    exact u16_at_append (by simp) hcount
  · rw [← List.append_assoc, ← List.append_assoc, ← List.append_assoc]
    exact u16_at_append (by simp) (by decide)
  · rw [← List.append_assoc, ← List.append_assoc, ← List.append_assoc, ← List.append_assoc]
    exact u16_at_append (by simp) (by decide)

/-- The client reads the answer that was meant, under the name of the question. -/
theorem answers_build_response {q : Query} {labels : List String} {qclass : UInt16} (h : IsQuestion labels qclass q)
    (answer : Answer) : answers (build_response q answer) = some (answer.records labels) := by
  have hdrop := drop_build_response q answer
  have hname : read_labels (build_response q answer) 12 [] = some (labels, 12 + (nameField labels).length) := by
    rw [h.question, List.append_assoc, List.append_assoc] at hdrop
    exact read_labels_nameField h.valid hdrop []
  have hcount := (header_build_response q answer).2.1
  have hpos : 12 + (nameField labels).length + 4 = 12 + q.question.length := by
    simp [h.question]
    omega
  have hfield := drop_append_of_drop hdrop rfl
  have hlen : (build_response q answer).length = 12 + q.question.length + answer.field.length := by
    rw [build_response_eq]
    simp
    omega
  simp only [answers, hcount, hname, Option.bind_eq_bind, Option.bind_some, hpos]
  cases answer with
  | NoData =>
    rw [show Answer.NoData.field = [] from rfl, List.length_nil] at hlen
    exact if_pos hlen.symm
  | A ip ttl =>
    have heq : (Answer.A ip ttl).field = recordField ⟨labels, QTYPE_A, 1, ttl, Wire.be 4 ip.toNat⟩ := List.append_nil _
    rw [heq] at hfield hlen
    have hread := read_record_recordField (by simp) hname (hfield.trans (List.append_nil _).symm)
    have hend : read_records (build_response q (.A ip ttl)) 0 _ = some [] := if_pos hlen.symm
    change read_records _ (0 + 1) _ = _
    rw [read_records, hread, Option.bind_eq_bind, Option.bind_some, hend]
    rfl

/-! ## A response answers its question -/

/-- The flags of a response: QR is set, RCODE is 0, and RD is that of the query. -/
theorem response_flags (rd : Bool) : ((0x8000 ||| if rd then 0x0100 else 0 : UInt16)).toNat / 2 ^ 15 = 1 ∧
    ((0x8000 ||| if rd then 0x0100 else 0 : UInt16)).toNat % 2 ^ 4 = 0 ∧
    rd = ((0x8000 ||| if rd then 0x0100 else 0 : UInt16) &&& 0x0100 != 0) := by
  cases rd <;> decide

/-- A response is itself a message with the question it answers. -/
theorem isQuery_build_response {labels : List String} {qclass : UInt16} {q : Query} (h : IsQuestion labels qclass q)
    (answer : Answer) : IsQuery (build_response q answer) q := by
  refine ⟨labels, 0x8000 ||| if q.rd then 0x0100 else 0, qclass, Wire.be 2 (answer.records []).length ++ Wire.be 4 0,
    answer.field, h, (response_flags q.rd).2.2, by simp, ?_⟩
  rw [build_response_eq]
  simp only [List.append_assoc]

/-- The name of a record is the pointer to offset 12. -/
theorem pointer_build_response {labels : List String} {qclass : UInt16} {q : Query} (h : IsQuestion labels qclass q)
    (ip : Ipv4Addr) (ttl : UInt32) :
    u16_at (build_response q (.A ip ttl)) (12 + (nameField labels).length + 4) = some 0xC00C := by
  have hpos : 12 + (nameField labels).length + 4 = 12 + q.question.length := by
    simp [h.question]
    omega
  have hdrop := drop_append_of_drop (drop_build_response q (.A ip ttl)) rfl
  rw [hpos]
  exact u16_at_eq_some_iff.2 ⟨by decide, _, hdrop.trans (List.append_assoc _ _ _)⟩

/-- The response to a query that was parsed is parsed to the same query again. It
is a response without error; `labels` stand at offset 12 as in the query, and what
the client finds behind the question are the records of the answer and nothing
else, the name of each a pointer to offset 12. -/
theorem build_response_answers {data : Bytes} {q : Query} (h : parse_query data = some (some q)) (answer : Answer) :
    parse_query (build_response q answer) = some (some q) ∧
    (∃ flags, u16_at (build_response q answer) 2 = some flags ∧ flags / 2 ^ 15 = 1 ∧ flags % 2 ^ 4 = 0) ∧
    ∃ labels pos, read_labels data 12 [] = some (labels, pos) ∧
      read_labels (build_response q answer) 12 [] = some (labels, pos) ∧
      u16_at (build_response q answer) 6 = some (answer.records labels).length ∧
      u16_at (build_response q answer) 8 = some 0 ∧ u16_at (build_response q answer) 10 = some 0 ∧
      answers (build_response q answer) = some (answer.records labels) ∧
      (answer.records labels ≠ [] → u16_at (build_response q answer) (pos + 4) = some 0xC00C) := by
  obtain ⟨labels, flags, qclass, counts, tail, hquestion, -, hcounts, hdata⟩ := ((parse_query_exact data).2 q).1 h
  obtain ⟨hflags, hancount, hns, har⟩ := header_build_response q answer
  have hlength : (answer.records labels).length = (answer.records []).length := by cases answer <;> rfl
  have hname : data.drop 12 = nameField labels ++ (Wire.be 2 q.qtype.toNat ++ Wire.be 2 qclass.toNat ++ tail) := by
    rw [hdata, List.append_assoc, List.drop_left' (by simp [hcounts]), hquestion.question]
    simp only [List.append_assoc]
  have hresponse : (build_response q answer).drop 12 =
      nameField labels ++ (Wire.be 2 q.qtype.toNat ++ Wire.be 2 qclass.toNat ++ answer.field) := by
    rw [drop_build_response, hquestion.question]
    simp only [List.append_assoc]
  refine ⟨((parse_query_exact _).2 q).2 (isQuery_build_response hquestion answer),
    ⟨_, hflags, (response_flags q.rd).1, (response_flags q.rd).2.1⟩, labels, _,
    read_labels_nameField hquestion.valid hname [], read_labels_nameField hquestion.valid hresponse [],
    by rw [hancount, hlength], hns, har, answers_build_response hquestion answer, fun hsome => ?_⟩
  cases answer with
  | NoData => exact absurd rfl hsome
  | A ip ttl => exact pointer_build_response hquestion ip ttl

/-- A label may hold a dot. -/
theorem build_response_answers_dotted : parse_query (build_response
      ⟨⟨"a.b", 1⟩, 7, true, [3, 97, 46, 98, 0, 0, 1, 0, 1]⟩ (.A 0xC6120001 60)) =
    some (some ⟨⟨"a.b", 1⟩, 7, true, [3, 97, 46, 98, 0, 0, 1, 0, 1]⟩) :=
  (@build_response_answers [0, 7, 1, 0, 0, 1, 0, 0, 0, 0, 0, 0, 3, 97, 46, 98, 0, 0, 1, 0, 1] _
    (by decide +kernel) (.A 0xC6120001 60)).1

end Dns
end MiniVpn
