import MiniVpn.Packets
import MiniVpn.Reality.ServerHello
/-!
# What the ServerHello parser accepts

A ServerHello for the client is laid out by `IsServerHello`: the header with the
client's own session id, and extensions that are walked entry by entry up to the
two it needs. A HelloRetryRequest is told apart by its random bytes, and the
constant the parser compares them with has a wrong byte.
`parse_server_hello_exact_iff` says that the parser goes wrong on the messages that
carry one of the two values, and on no others. Some lookups of the source are not
`get`; `Indexed` is the parser with all of them in it, and none fails.
-/
open Lib

namespace MiniVpn

namespace Reality

namespace ServerHello

/-! ## Extensions -/

/-- An extension on the wire. -/
def entry (e : UInt16 × Bytes) : Bytes := Wire.be 2 e.1.toNat ++ (Wire.be 2 e.2.length ++ e.2)

/-- The body has a length field. -/
def WellFormed (e : UInt16 × Bytes) : Prop := e.2.length < 65536

/-- The entries of an extension block up to one that is cut off. -/
def walk (exts : Bytes) : List (UInt16 × Bytes) :=
  match exts with
  | t₁ :: t₀ :: l₁ :: l₀ :: rest =>
    if Wire.ofBe [l₁, l₀] ≤ rest.length then
      (UInt16.ofNat (Wire.ofBe [t₁, t₀]), rest.take (Wire.ofBe [l₁, l₀])) :: walk (rest.drop (Wire.ofBe [l₁, l₀]))
    else []
  | _ => []
termination_by exts.length
decreasing_by exact Wire.length_drop_lt rest _ t₁ t₀ l₁ l₀

/-- The body of the first entry of a type. -/
def first (entries : List (UInt16 × Bytes)) (typ : UInt16) : Option Bytes :=
  (entries.find? fun e => e.1 == typ).map Prod.snd

theorem walk_layout (exts : Bytes) :
    (∀ e ∈ walk exts, WellFormed e) ∧ ∃ tail, exts = (walk exts).flatMap entry ++ tail := by
  fun_induction walk exts with
  | case1 t₁ t₀ l₁ l₀ rest hlen ih =>
    obtain ⟨hgood, tail, htail⟩ := ih
    have hbody : (rest.take (Wire.ofBe [l₁, l₀])).length = Wire.ofBe [l₁, l₀] := List.length_take_of_le hlen
    refine ⟨List.forall_mem_cons.2 ⟨?_, hgood⟩, tail, ?_⟩
    · rw [WellFormed, hbody]
      exact Wire.ofBe_pair_lt l₁ l₀
    · have hl : Wire.be 2 (Wire.ofBe [l₁, l₀]) = [l₁, l₀] := Wire.be_ofBe [l₁, l₀]
      rw [List.flatMap_cons, entry, Wire.be_toNat_ofBe_pair, hbody, hl, List.append_assoc, ← htail]
      simp
  | case2 => exact ⟨by simp, _, rfl⟩
  | case3 => exact ⟨by simp, _, rfl⟩

theorem walk_entry_append {e : UInt16 × Bytes} (h : WellFormed e) (rest : Bytes) :
    walk (entry e ++ rest) = e :: walk rest := by
  have htyp : Wire.ofBe [UInt8.ofNat (e.1.toNat / 256), UInt8.ofNat e.1.toNat] = e.1.toNat :=
    Wire.ofBe_be_of_lt (n := 2) e.1.toNat_lt
  have hlen : Wire.ofBe [UInt8.ofNat (e.2.length / 256), UInt8.ofNat e.2.length] = e.2.length :=
    Wire.ofBe_be_of_lt (n := 2) h
  rw [entry, Wire.be_two, Wire.be_two]
  simp only [List.cons_append, List.nil_append]
  rw [walk, htyp, hlen, if_pos (by simp), List.take_left, List.drop_left, UInt16.ofNat_toNat]

theorem walk_entries_append {entries : List (UInt16 × Bytes)} (h : ∀ e ∈ entries, WellFormed e) (tail : Bytes) :
    walk (entries.flatMap entry ++ tail) = entries ++ walk tail := by
  induction entries with
  | nil => rfl
  | cons e entries ih =>
    rw [List.flatMap_cons, List.append_assoc, walk_entry_append (h e List.mem_cons_self),
      ih fun e' he' => h e' (List.mem_cons_of_mem _ he'), List.cons_append]

/-- The loop finds the first entry of a type among those it walks over. -/
theorem find_ext_eq (exts : Bytes) {want : Nat} (hwant : want < 65536) :
    find_ext exts want = first (walk exts) (UInt16.ofNat want) := by
  fun_induction walk exts with
  | case1 t₁ t₀ l₁ l₀ rest hlen ih =>
    have hslice : Wire.slice rest 0 (Wire.ofBe [l₁, l₀]) = some (rest.take (Wire.ofBe [l₁, l₀])) :=
      Wire.slice_eq_some (Nat.zero_le _) hlen
    have hiff : (UInt16.ofNat (Wire.ofBe [t₁, t₀]) == UInt16.ofNat want) = true ↔ Wire.ofBe [t₁, t₀] = want := by
      rw [beq_iff_eq, ← UInt16.toNat_inj, UInt16.toNat_ofNat', UInt16.toNat_ofNat',
        Nat.mod_eq_of_lt (Wire.ofBe_pair_lt t₁ t₀), Nat.mod_eq_of_lt hwant]
    rw [find_ext, hslice]
    simp only [first, List.find?_cons, ih]
    by_cases heq : Wire.ofBe [t₁, t₀] = want
    · rw [if_pos heq, hiff.2 heq]
      rfl
    · rw [if_neg heq, Bool.eq_false_iff.2 fun hb => heq (hiff.1 hb)]
  | case2 t₁ t₀ l₁ l₀ rest hlen =>
    rw [find_ext, Wire.slice, if_neg (by omega)]
    rfl
  | case3 exts hshort =>
    unfold find_ext
    split
    · exact absurd rfl (hshort _ _ _ _ _)
    · rfl

/-! ## The grammar -/

/-- The extensions name TLS 1.3 and carry the share `k`: each of the two is the
first of its type in a row of well-formed entries, behind which anything may
stand. -/
def IsExtensions (exts : Bytes) (k : Block 32) : Prop :=
  ∃ (entries : List (UInt16 × Bytes)) (tail rest : Bytes), (∀ e ∈ entries, WellFormed e) ∧
    exts = entries.flatMap entry ++ tail ∧ first entries 0x002b = some [0x03, 0x04] ∧
    first entries 0x0033 = some ([0x00, 0x1d] ++ [0x00, 0x20] ++ k.1 ++ rest)

/-- The body of a ServerHello that echoes `sid`. -/
def serverHelloBody (random : Block 32) (sid exts tail : Bytes) : Bytes :=
  [0x03, 0x03] ++ (random.1 ++ ([UInt8.ofNat sid.length] ++ (sid ++ ([0x13, 0x01] ++ ([0x00] ++
    (Wire.be 2 exts.length ++ (exts ++ tail)))))))

/-- SHA-256 of `HelloRetryRequest`: the random bytes of that message. -/
def RETRY_RANDOM : Block 32 := .ofNat 32 0xcf21ad74e59a6111be1d8c021e65b891c2a211167abb8c5e079e09e2c8a8339c

/-- A message with these random bytes that is otherwise a ServerHello for the client. -/
def HasLayout (random : Block 32) (bytes sid : Bytes) (k : Block 32) : Prop :=
  ∃ exts tail : Bytes, random.1.drop 24 ∉ DOWNGRADE ∧ sid.length < 256 ∧ exts.length < 65536 ∧ IsExtensions exts k ∧
    (serverHelloBody random sid exts tail).length < 256 ^ 3 ∧
    bytes = [0x02] ++ (Wire.be 3 (serverHelloBody random sid exts tail).length ++ serverHelloBody random sid exts tail)

def IsServerHello (bytes sid : Bytes) (k : Block 32) : Prop :=
  ∃ random : Block 32, random ≠ RETRY_RANDOM ∧ HasLayout random bytes sid k

/-! ## The parser accepts the grammar -/

theorem err_bind {α β : Type} (m : String) (f : α → Except Stop β) : (err m >>= f) = err m := rfl

theorem ok_bind {α β : Type} (a : α) (f : α → Except Stop β) : (.ok a >>= f) = f a := rfl

theorem ok_or_eq_ok {α : Type} {o : Option α} {m : String} {a : α} : ok_or o m = .ok a ↔ o = some a := by
  cases o <;> simp [ok_or, err]

theorem ite_err_eq_ok {α : Type} {p : Prop} [Decidable p] {m : String} {x : Except Stop α} {a : α} :
    (if p then err m else x) = .ok a ↔ ¬ p ∧ x = .ok a := by
  split <;> simp_all [err]

theorem extract_selected_version_eq_ok {exts : Bytes} :
    extract_selected_version exts = .ok 0x0304 ↔ find_ext exts 0x002b = some [0x03, 0x04] := by
  simp only [extract_selected_version, bind_eq_ok, ok_or_eq_ok, ite_err_eq_ok]
  constructor
  · rintro ⟨b, hb, hlen, hver⟩
    rw [((Wire.ofBe_eq_iff (not_not.1 hlen)).1 (Except.ok.inj hver)).1] at hb
    exact hb
  · intro h
    exact ⟨_, h, by decide, rfl⟩

theorem extract_key_share_eq_ok {exts : Bytes} {k : Block 32} : extract_key_share_x25519 exts = .ok k ↔
    ∃ rest, find_ext exts 0x0033 = some ([0x00, 0x1d] ++ [0x00, 0x20] ++ k.1 ++ rest) := by
  simp only [extract_key_share_x25519, bind_eq_ok, ok_or_eq_ok, ite_err_eq_ok]
  constructor
  · rintro ⟨b, hb, hlen, hgroup, hsize, hk⟩
    split at hk
    · cases hk
    · obtain rfl := Except.ok.inj hk
      have h2 : (b.take 2).length = 2 := by
        rw [List.length_take]
        omega
      have h4 : ((b.drop 2).take 2).length = 2 := by
        rw [List.length_take, List.length_drop]
        omega
      have hgroup := ((Wire.ofBe_eq_iff h2).1 (not_not.1 hgroup)).1
      have hsize := ((Wire.ofBe_eq_iff h4).1 (not_not.1 hsize)).1
      refine ⟨(b.drop 4).drop 32, ?_⟩
      rw [hb, List.append_assoc, List.take_append_drop, show [0x00, 0x1d] = b.take 2 from hgroup.symm,
        show [0x00, 0x20] = (b.drop 2).take 2 from hsize.symm, List.append_assoc]
      rw [show b.drop 4 = (b.drop 2).drop 2 by rw [List.drop_drop], List.take_append_drop, List.take_append_drop]
  · rintro ⟨rest, h⟩
    have hk := k.2
    refine ⟨_, h, by simp, by simp [Wire.ofBe], by simp [Wire.ofBe], ?_⟩
    rw [dif_neg (by simp; omega)]
    refine congrArg Except.ok (Subtype.ext ?_)
    simp [hk]

/-- The two extensions in the walk of the parser. -/
theorem isExtensions_iff {exts : Bytes} {k : Block 32} : IsExtensions exts k ↔
    extract_selected_version exts = .ok 0x0304 ∧ extract_key_share_x25519 exts = .ok k := by
  rw [extract_selected_version_eq_ok, extract_key_share_eq_ok, find_ext_eq exts (by decide), find_ext_eq exts (by decide)]
  constructor
  · rintro ⟨entries, tail, rest, hgood, rfl, hversion, hshare⟩
    rw [walk_entries_append hgood]
    -- What is found among the entries is found whatever is behind them.
    have happ : ∀ {typ : UInt16} {body : Bytes}, first entries typ = some body →
        first (entries ++ walk tail) typ = some body := by
      intro typ body hfirst
      obtain ⟨e, he, rfl⟩ := Option.map_eq_some_iff.1 hfirst
      rw [first, List.find?_append, he]
      rfl
    exact ⟨happ hversion, rest, happ hshare⟩
  · rintro ⟨hversion, rest, hshare⟩
    obtain ⟨hgood, tail, htail⟩ := walk_layout exts
    exact ⟨walk exts, tail, rest, hgood, htail, hversion, hshare⟩

/-- The fields of a body, each at its position. -/
theorem serverHelloBody_iff {body sid exts : Bytes} {random : Block 32} :
    (∃ tail, body = serverHelloBody random sid exts tail) ↔
      Wire.At body 0 [0x03, 0x03] ∧ Wire.At body 2 random.1 ∧ Wire.At body 34 [UInt8.ofNat sid.length] ∧
      Wire.At body 35 sid ∧ Wire.At body (35 + sid.length) [0x13, 0x01] ∧ Wire.At body (35 + sid.length + 2) [0x00] ∧
      Wire.At body (35 + sid.length + 3) (Wire.be 2 exts.length) ∧ Wire.At body (35 + sid.length + 5) exts := by
  have h : (∃ tail, body = serverHelloBody random sid exts tail) ↔ Wire.At body 0 ([0x03, 0x03] ++ (random.1 ++
      ([UInt8.ofNat sid.length] ++ (sid ++ ([0x13, 0x01] ++ ([0x00] ++ (Wire.be 2 exts.length ++ exts))))))) := by
    simp only [Wire.at_zero, serverHelloBody, List.append_assoc]
  rw [h]
  simp only [Wire.at_append, random.2, Wire.length_be, List.length_cons, List.length_nil, Nat.add_assoc, Nat.zero_add,
    Nat.reduceAdd]

/-- The three parts of a handshake message, each at its position. -/
theorem message_iff {bytes field body : Bytes} (hfield : field.length = 3) :
    bytes = [0x02] ++ (field ++ body) ↔
      bytes.head? = some 0x02 ∧ Wire.At bytes 1 field ∧ 4 + body.length = bytes.length ∧ Wire.At bytes 4 body := by
  have hhead : bytes.head? = some 0x02 ↔ Wire.At bytes 0 [0x02] := by
    rw [List.head?_eq_getElem?, Wire.getElem?_eq_some_iff_at]
  have hat : Wire.At bytes 0 ([0x02] ++ (field ++ body)) ↔ Wire.At bytes 0 [0x02] ∧ Wire.At bytes 1 field ∧
      Wire.At bytes 4 body := by
    rw [Wire.at_append, Wire.at_append, hfield]
    exact Iff.rfl
  rw [hhead]
  constructor
  · intro h
    obtain ⟨h0, h1, h4⟩ := hat.1 (Wire.at_zero.2 ⟨[], by rw [h, List.append_nil]⟩)
    refine ⟨h0, h1, ?_, h4⟩
    rw [h]
    simp [hfield]
    omega
  · rintro ⟨h0, h1, hlen, h4⟩
    obtain ⟨back, hback⟩ := Wire.at_zero.1 (hat.2 ⟨h0, h1, h4⟩)
    have hnil := congrArg List.length hback
    simp only [List.length_append, List.length_singleton, hfield] at hnil
    rw [hback, List.length_eq_zero_iff.1 (by omega : back.length = 0), List.append_nil]

theorem parse_server_hello_eq_ok {bytes sid : Bytes} {sh : ParsedServerHello} :
    parse_server_hello bytes sid = .ok sh ↔ sh.cipher_suite = 0x1301 ∧
      ∃ random, random ≠ HRR_RANDOM ∧ HasLayout random bytes sid sh.server_key_share := by
  unfold parse_server_hello
  simp only [err_bind, bind_eq_ok, ite_err_eq_ok, ok_or_eq_ok, not_not, Wire.slice_eq_some_iff,
    Wire.getElem?_eq_some_iff_at]
  constructor
  · rintro ⟨hhead, field, ⟨hfield3, hfield⟩, body, hbody, hlen, ⟨-, hver⟩, random, ⟨hrandom32, hrandom⟩, hhrr, hdown,
      sid_len, hsid_len, sid, ⟨hsidlen, hsid⟩, rfl, cs, ⟨hcs2, hcs⟩, hsuite, _, hcomp, rfl, el, ⟨hel2, hel⟩, exts,
      ⟨hextslen, hexts⟩, _, hversion, rfl, k, hk, heq⟩
    obtain rfl := Except.ok.inj heq
    have hrandom32 : random.length = 32 := by omega
    have hn : sid_len.toNat = sid.length := by omega
    have hsid255 := sid_len.toNat_lt
    rw [hn] at hcs hcomp hel hexts hsid255
    rw [← @UInt8.ofNat_toNat sid_len, hn] at hsid_len
    rw [((Wire.ofBe_eq_iff (by omega : cs.length = 2)).1 hsuite).1] at hcs
    obtain ⟨rfl, hexts16⟩ := (Wire.ofBe_eq_iff (by omega : el.length = 2)).1 (by omega : Wire.ofBe el = exts.length)
    obtain ⟨rfl, hbody24⟩ := (Wire.ofBe_eq_iff (by omega : field.length = 3)).1 hlen
    have hbytes := (message_iff (Wire.length_be 3 _)).2 ⟨hhead, hfield, hbody⟩
    obtain ⟨tail, rfl⟩ := (@serverHelloBody_iff body sid exts ⟨random, hrandom32⟩).2
      ⟨hver, hrandom, hsid_len, hsid, hcs, hcomp, hel, hexts⟩
    exact ⟨hsuite, _, fun h => hhrr (Subtype.ext_iff.1 h), exts, tail, by simpa using hdown, hsid255, hexts16,
      isExtensions_iff.2 ⟨hversion, hk⟩, hbody24, hbytes⟩
  · rintro ⟨hsuite, random, hhrr, exts, tail, hdown, hsid255, hexts16, hext, hbody24, hbytes⟩
    obtain ⟨hver, hrandom, hsid_len, hsid, hcs, hcomp, hel, hexts⟩ := serverHelloBody_iff.1 ⟨tail, rfl⟩
    obtain ⟨hhead, hfield, hbody⟩ := (message_iff (Wire.length_be 3 _)).1 hbytes
    obtain ⟨hversion, hk⟩ := isExtensions_iff.1 hext
    have hn : (UInt8.ofNat sid.length).toNat = sid.length := by
      rw [UInt8.toNat_ofNat', Nat.mod_eq_of_lt hsid255]
    refine ⟨hhead, _, ⟨by simp, hfield⟩, _, hbody, Wire.ofBe_be_of_lt hbody24, ⟨rfl, hver⟩, random.1,
      ⟨by simp [random.2], hrandom⟩, fun h => hhrr (Subtype.ext h), by simpa using hdown, _, hsid_len, ?_⟩
    rw [hn]
    refine ⟨sid, ⟨rfl, hsid⟩, rfl, _, ⟨rfl, hcs⟩, rfl, 0, hcomp, rfl, _, ⟨by simp, hel⟩, exts, ⟨?_, hexts⟩, _, hversion,
      rfl, _, hk, ?_⟩
    · rw [Wire.ofBe_be_of_lt (n := 2) hexts16]
    · rw [show sh = ⟨sh.cipher_suite, sh.server_key_share⟩ from rfl, hsuite]
      rfl

/-! ## Every lookup is in range -/

/-- An index, a range or an `unwrap`, which panics. -/
def must {α : Type} : Option α → Except Stop α
  | some a => .ok a
  | none => .error .panicked

namespace Indexed

def find_ext (exts : Bytes) (want i : Nat) : Except Stop (Option Bytes) :=
  if _hi : i + 4 ≤ exts.length then do
    let t ← must (u16_at exts i)
    let l ← must (u16_at exts (i + 2))
    match Wire.slice exts (i + 4) (i + 4 + l) with
    | none => return none
    | some body => if t = want then return some body else find_ext exts want (i + 4 + l)
  else return none
termination_by exts.length - i

def extract_selected_version (exts : Bytes) : Except Stop Nat := do
  let b ← ok_or (← find_ext exts 0x002b 0) "缺 supported_versions 扩展"
  if b.length ≠ 2 then err "supported_versions 长度异常"
  must (u16_at b 0)

def extract_key_share_x25519 (exts : Bytes) : Except Stop (Block 32) := do
  let b ← ok_or (← find_ext exts 0x0033 0) "缺 key_share 扩展"
  if b.length < 4 then err "key_share 截断"
  if (← must (u16_at b 0)) ≠ 0x001d then err "key_share group != X25519"
  if (← must (u16_at b 2)) ≠ 32 then err "X25519 key_share 长度 != 32"
  let key ← ok_or (Wire.slice b 4 36) "key_share 截断"
  must (Block.try_into 32 key)

def parse_server_hello (bytes expected_session_id : Bytes) : Except Stop ParsedServerHello := do
  if bytes.head? ≠ some 0x02 then err "非 ServerHello（handshake type != 0x02）"
  let len_field ← ok_or (Wire.slice bytes 1 4) "handshake 头截断"
  let body ← ok_or (Wire.slice bytes 4 bytes.length) "handshake 头截断"
  let claimed := Wire.ofBe [← must len_field[0]?, ← must len_field[1]?, ← must len_field[2]?]
  if claimed ≠ body.length then err "handshake 长度字段与实际 body 不符"
  if Wire.slice body 0 2 ≠ some [0x03, 0x03] then err "legacy_version != 0x0303"
  let random ← must (Block.try_into 32 (← ok_or (Wire.slice body 2 34) "random 截断"))
  if random = HRR_RANDOM then err "HelloRetryRequest（暂不支持，刀8 处理）"
  if DOWNGRADE.contains (← must (Wire.slice random.1 24 32)) then err "downgrade sentinel（服务端降级到 <1.3）"
  let sid_len := (← ok_or body[34]? "session_id 长度截断").toNat
  let p := 35 + sid_len
  let sid ← ok_or (Wire.slice body 35 p) "session_id 截断"
  if sid ≠ expected_session_id then err "session_id_echo 与我方发出的 session_id 不一致"
  let cs ← ok_or (Wire.slice body p (p + 2)) "cipher_suite 截断"
  let cipher_suite ← must (u16_at cs 0)
  if cipher_suite ≠ 0x1301 then
    err "不支持的 cipher_suite（刀7 仅 TLS_AES_128_GCM_SHA256 0x1301；0x1302/0x1303 见 ADR-0009 gap）"
  let compression ← ok_or body[p + 2]? "compression 截断"
  if compression ≠ 0 then err "legacy_compression != 0"
  let el ← ok_or (Wire.slice body (p + 3) (p + 5)) "extensions 长度截断"
  let ext_len ← must (u16_at el 0)
  let exts ← ok_or (Wire.slice body (p + 5) (p + 5 + ext_len)) "extensions 截断"
  if (← extract_selected_version exts) ≠ 0x0304 then err "selected_version != TLS 1.3"
  let server_key_share ← extract_key_share_x25519 exts
  return { cipher_suite := cipher_suite, server_key_share := server_key_share }

/-! One field after the other, an indexed lookup gives what the parser reads. -/

theorem must_some {α β : Type} (a : α) (f : α → Except Stop β) : (must (some a) >>= f) = f a := rfl

theorem must_u16_at {b : Bytes} {i : Nat} (h : i + 2 ≤ b.length) : must (u16_at b i) = .ok (Wire.ofBe ((b.drop i).take 2)) := by
  have hi : i < b.length := by omega
  have hi' : i + 1 < b.length := by omega
  rw [u16_at, List.getElem?_eq_getElem hi, List.getElem?_eq_getElem hi', List.drop_eq_getElem_cons hi,
    List.drop_eq_getElem_cons hi']
  rfl

theorem find_ext_eq_ok (exts : Bytes) (want i : Nat) :
    find_ext exts want i = .ok (ServerHello.find_ext (exts.drop i) want) := by
  fun_induction find_ext exts want i with
  | case1 i hi ih =>
    have hdrop : ∃ t₁ t₀ l₁ l₀ rest, exts.drop i = t₁ :: t₀ :: l₁ :: l₀ :: rest := by
      have hlen : 4 ≤ (exts.drop i).length := by
        rw [List.length_drop]
        omega
      match exts.drop i, hlen with
      | t₁ :: t₀ :: l₁ :: l₀ :: rest, _ => exact ⟨t₁, t₀, l₁, l₀, rest, rfl⟩
    obtain ⟨t₁, t₀, l₁, l₀, rest, hrest⟩ := hdrop
    have hback (n : Nat) : exts.drop (i + n) = (t₁ :: t₀ :: l₁ :: l₀ :: rest).drop n := by
      rw [← List.drop_drop, hrest]
    have hslice (n : Nat) : Wire.slice exts (i + 4) (i + 4 + n) = Wire.slice rest 0 n := by
      rw [Wire.slice_add hi, hback]
      rfl
    have ht : must (u16_at exts i) = .ok (Wire.ofBe [t₁, t₀]) := by
      rw [must_u16_at (by omega), hrest]
      rfl
    have hl : must (u16_at exts (i + 2)) = .ok (Wire.ofBe [l₁, l₀]) := by
      rw [must_u16_at (by omega), hback]
      rfl
    have hnext : exts.drop (i + 4 + Wire.ofBe [l₁, l₀]) = rest.drop (Wire.ofBe [l₁, l₀]) := by
      rw [← List.drop_drop, hback]
      rfl
    rw [ht, hl, hrest, ServerHello.find_ext, ok_bind, ok_bind, hslice, ih, hnext]
    cases Wire.slice rest 0 (Wire.ofBe [l₁, l₀]) with
    | none => rfl
    | some body =>
      dsimp only
      split <;> rfl
  | case2 i hi =>
    have hlen : (exts.drop i).length < 4 := by
      rw [List.length_drop]
      omega
    unfold ServerHello.find_ext
    split
    · rename_i heq
      rw [heq] at hlen
      simp at hlen
      omega
    · rfl

theorem ok_or_bind_congr {α β : Type} {o : Option α} {m : String} {f g : α → Except Stop β}
    (h : ∀ a, o = some a → f a = g a) : (ok_or o m >>= f) = (ok_or o m >>= g) := by
  cases o with
  | none => rfl
  | some a => exact h a rfl

theorem ite_err_congr {α : Type} {p : Prop} [Decidable p] {m : String} {x y : Except Stop α} (h : ¬ p → x = y) :
    (if p then err m else x) = if p then err m else y := by
  split
  · rfl
  · rename_i hp
    exact h hp

theorem must_u16_at_of_length {b : Bytes} (h : b.length = 2) : must (u16_at b 0) = .ok (Wire.ofBe b) := by
  rw [must_u16_at (by omega), List.drop_zero, List.take_of_length_le (by omega)]

theorem extract_selected_version_eq (exts : Bytes) :
    extract_selected_version exts = ServerHello.extract_selected_version exts := by
  unfold extract_selected_version ServerHello.extract_selected_version
  rw [find_ext_eq_ok, List.drop_zero, ok_bind]
  refine ok_or_bind_congr fun b hb => ?_
  simp only [err_bind]
  refine ite_err_congr fun hlen => ?_
  exact must_u16_at_of_length (not_not.1 hlen)

theorem extract_key_share_eq (exts : Bytes) :
    extract_key_share_x25519 exts = ServerHello.extract_key_share_x25519 exts := by
  unfold extract_key_share_x25519 ServerHello.extract_key_share_x25519
  rw [find_ext_eq_ok, List.drop_zero, ok_bind]
  refine ok_or_bind_congr fun b hb => ?_
  simp only [err_bind]
  refine ite_err_congr fun hlen => ?_
  rw [must_u16_at (by omega), must_u16_at (by omega), ok_bind, ok_bind, List.drop_zero]
  refine ite_err_congr fun _ => ite_err_congr fun _ => ?_
  by_cases hkey : (b.drop 4).length < 32
  · rw [dif_pos hkey, Wire.slice, if_neg]
    · rfl
    · rw [List.length_drop] at hkey
      omega
  · rw [dif_neg hkey]
    rw [List.length_drop] at hkey
    have hlen : ((b.take 36).drop 4).length = 32 := by
      rw [List.length_drop, List.length_take]
      omega
    rw [Wire.slice_eq_some (by decide) (by omega), show ok_or (some ((b.take 36).drop 4)) "key_share 截断" = .ok _ from rfl,
      ok_bind, Block.try_into_eq hlen]
    refine congrArg Except.ok (Subtype.ext ?_)
    exact List.drop_take

/-- The parser is the indexed one. -/
theorem parse_server_hello_eq (bytes sid : Bytes) :
    parse_server_hello bytes sid = ServerHello.parse_server_hello bytes sid := by
  unfold parse_server_hello ServerHello.parse_server_hello
  simp only [err_bind, extract_selected_version_eq, extract_key_share_eq]
  refine ite_err_congr fun _ => ok_or_bind_congr fun field hfield => ok_or_bind_congr fun body _ => ?_
  have hfield3 := (Wire.slice_eq_some_iff.1 hfield).1
  obtain ⟨a, b, c, rfl⟩ := List.length_eq_three.1 (by omega : field.length = 3)
  simp only [List.getElem?_cons_zero, List.getElem?_cons_succ, must_some]
  refine ite_err_congr fun _ => ite_err_congr fun _ => ok_or_bind_congr fun random hrandom => ?_
  have h32 : random.length = 32 := by
    have := (Wire.slice_eq_some_iff.1 hrandom).1
    omega
  have hlast : Wire.slice random 24 32 = some (random.drop 24) := by
    rw [Wire.slice_eq_some (by decide) (by omega), List.take_of_length_le (by omega)]
  rw [Block.try_into_eq h32, must_some]
  simp only [Subtype.ext_iff, hlast, must_some]
  refine ite_err_congr fun _ => ite_err_congr fun _ => ok_or_bind_congr fun sid_len _ => ok_or_bind_congr fun sid' _ => ?_
  refine ite_err_congr fun _ => ok_or_bind_congr fun cs hcs => ?_
  have hcs2 := (Wire.slice_eq_some_iff.1 hcs).1
  rw [must_u16_at_of_length (by omega), ok_bind]
  refine ite_err_congr fun _ => ok_or_bind_congr fun _ _ => ite_err_congr fun _ => ok_or_bind_congr fun el hel => ?_
  have hel2 := (Wire.slice_eq_some_iff.1 hel).1
  rw [must_u16_at_of_length (by omega), ok_bind]

end Indexed

/-! ## The parser is exact -/

/-- A result or a text: the function neither panics nor waits. -/
def Returns {α : Type} (x : Except Stop α) : Prop := (∃ a, x = .ok a) ∨ ∃ m, x = .error (.error m)

namespace Returns
variable {α β : Type} {x : Except Stop α} {m : String}

theorem pure (a : α) : Returns (Pure.pure a : Except Stop α) := .inl ⟨a, rfl⟩

theorem err : Returns (err m : Except Stop α) := .inr ⟨_, rfl⟩

theorem ite_err {p : Prop} [Decidable p] (h : Returns x) : Returns (if p then ServerHello.err m else x) := by
  split
  · exact err
  · exact h

theorem bind {f : α → Except Stop β} (hx : Returns x) (hf : ∀ a, Returns (f a)) : Returns (x >>= f) := by
  rcases hx with ⟨a, rfl⟩ | ⟨t, rfl⟩
  · exact hf a
  · exact .inr ⟨t, rfl⟩

theorem ok_or_bind {o : Option α} {f : α → Except Stop β} (hf : ∀ a, Returns (f a)) : Returns (ok_or o m >>= f) := by
  cases o with
  | none => exact err
  | some a => exact hf a

theorem selected_version (exts : Bytes) : Returns (extract_selected_version exts) :=
  .ok_or_bind fun _ => .ite_err (.pure _)

theorem key_share (exts : Bytes) : Returns (extract_key_share_x25519 exts) := by
  refine .ok_or_bind fun b => .ite_err (.ite_err (.ite_err ?_))
  split
  · exact err
  · exact .pure _

theorem server_hello (bytes sid : Bytes) : Returns (parse_server_hello bytes sid) := by
  unfold parse_server_hello
  simp only [err_bind]
  refine .ite_err (.ok_or_bind fun _ => .ok_or_bind fun _ => .ite_err (.ite_err (.ok_or_bind fun _ => .ite_err (.ite_err ?_))))
  refine .ok_or_bind fun _ => .ok_or_bind fun _ => .ite_err (.ok_or_bind fun _ => .ite_err (.ok_or_bind fun _ => .ite_err ?_))
  refine .ok_or_bind fun _ => .ok_or_bind fun exts => (selected_version exts).bind fun _ => .ite_err ?_
  exact (key_share exts).bind fun _ => .pure _

end Returns

/-- The random bytes of a message stand behind its header and version. -/
theorem HasLayout.random_eq {random : Block 32} {bytes sid : Bytes} {k : Block 32} (h : HasLayout random bytes sid k) :
    random.1 = (bytes.drop 6).take 32 := by
  obtain ⟨exts, tail, -, -, -, -, -, rfl⟩ := h
  generalize (serverHelloBody random sid exts tail).length = n
  have hfront : ([0x02] ++ (Wire.be 3 n ++ [0x03, 0x03])).length = 6 := by simp
  have hbytes : [0x02] ++ (Wire.be 3 n ++ serverHelloBody random sid exts tail) =
      [0x02] ++ (Wire.be 3 n ++ [0x03, 0x03]) ++ (random.1 ++ ([UInt8.ofNat sid.length] ++ (sid ++ ([0x13, 0x01] ++
        ([0x00] ++ (Wire.be 2 exts.length ++ (exts ++ tail))))))) := by
    simp only [serverHelloBody, List.append_assoc]
  rw [hbytes, List.drop_left' hfront, List.take_left' random.2]

theorem HasLayout.random_unique {random random' : Block 32} {bytes sid : Bytes} {k k' : Block 32}
    (h : HasLayout random bytes sid k) (h' : HasLayout random' bytes sid k') : random = random' :=
  Subtype.ext (h.random_eq.trans h'.random_eq.symm)

theorem indexed_eq_ok_iff {bytes sid : Bytes} {k : Block 32} :
    (∃ sh, Indexed.parse_server_hello bytes sid = .ok sh ∧ sh.server_key_share = k) ↔
      ∃ random, random ≠ HRR_RANDOM ∧ HasLayout random bytes sid k := by
  rw [Indexed.parse_server_hello_eq]
  constructor
  · rintro ⟨sh, hsh, rfl⟩
    exact (parse_server_hello_eq_ok.1 hsh).2
  · exact fun h => ⟨⟨0x1301, k⟩, parse_server_hello_eq_ok.2 ⟨rfl, h⟩, rfl⟩

theorem retry_random_ne : RETRY_RANDOM ≠ HRR_RANDOM := by decide

/-- The parser with all lookups of the source ends with a result or a text whatever it
is given. It accepts the grammar and nothing else, unless the message is laid out as
a ServerHello and carries the random bytes of a HelloRetryRequest or those of the
constant. -/
theorem parse_server_hello_exact_iff (bytes sid : Bytes) :
    ((∀ k, (∃ sh, Indexed.parse_server_hello bytes sid = .ok sh ∧ sh.server_key_share = k) ↔ IsServerHello bytes sid k) ↔
      ∀ random k, HasLayout random bytes sid k → random ≠ RETRY_RANDOM ∧ random ≠ HRR_RANDOM) ∧
    Returns (Indexed.parse_server_hello bytes sid) ∧
    Indexed.parse_server_hello bytes sid = parse_server_hello bytes sid := by
  simp only [indexed_eq_ok_iff]
  refine ⟨⟨fun h random k hlayout => ⟨?_, ?_⟩, fun h k => ?_⟩, ?_, Indexed.parse_server_hello_eq bytes sid⟩
  · -- What has the random bytes of a HelloRetryRequest passes for a ServerHello.
    rintro rfl
    obtain ⟨random', hne, hlayout'⟩ := (h k).1 ⟨RETRY_RANDOM, retry_random_ne, hlayout⟩
    exact hne (hlayout'.random_unique hlayout)
  · -- A ServerHello with those of the constant is refused.
    rintro rfl
    obtain ⟨random', hne, hlayout'⟩ := (h k).2 ⟨HRR_RANDOM, retry_random_ne.symm, hlayout⟩
    exact hne (hlayout'.random_unique hlayout)
  · constructor
    · rintro ⟨random, -, hlayout⟩
      exact ⟨random, (h random k hlayout).1, hlayout⟩
    · rintro ⟨random, -, hlayout⟩
      exact ⟨random, (h random k hlayout).2, hlayout⟩
  · rw [Indexed.parse_server_hello_eq]
    exact Returns.server_hello bytes sid

/-- The random bytes of a HelloRetryRequest in what is otherwise a ServerHello. -/
def retry_with_share : Bytes :=
  [0x02, 0x00, 0x00, 0x56] ++ [0x03, 0x03] ++ RETRY_RANDOM.1 ++ [0x00] ++ [0x13, 0x01] ++ [0x00] ++ [0x00, 0x2e] ++
    [0x00, 0x33, 0x00, 0x24, 0x00, 0x1d, 0x00, 0x20] ++ List.replicate 32 5 ++ [0x00, 0x2b, 0x00, 0x02, 0x03, 0x04]

/-- The parser takes it for a ServerHello. -/
theorem retry_accepted : (∃ sh, Indexed.parse_server_hello retry_with_share [] = .ok sh) ∧
    ∀ k, ¬ IsServerHello retry_with_share [] k := by
  constructor
  · refine ⟨⟨0x1301, ⟨List.replicate 32 5, by decide⟩⟩, ?_⟩
    rw [Indexed.parse_server_hello_eq]
    decide +kernel
  · rintro k ⟨random, hne, hlayout⟩
    exact hne (Subtype.ext (hlayout.random_eq.trans (by decide +kernel)))

/-- The share may come first, and entries nobody asked for are passed over. -/
example : parse_server_hello ([0x02, 0x00, 0x00, 0x60] ++ [0x03, 0x03] ++ List.replicate 32 7 ++ [0x01, 0x09] ++ [0x13, 0x01] ++
    [0x00] ++ [0x00, 0x33] ++ [0xff, 0x01, 0x00, 0x01, 0x00] ++ [0x00, 0x33, 0x00, 0x24, 0x00, 0x1d, 0x00, 0x20] ++
    List.replicate 32 5 ++ [0x00, 0x2b, 0x00, 0x02, 0x03, 0x04] ++ [0xaa, 0xbb, 0xcc, 0xdd]) [0x09] =
    .ok ⟨0x1301, ⟨List.replicate 32 5, by decide⟩⟩ := by decide +kernel

end ServerHello

end Reality

end MiniVpn
