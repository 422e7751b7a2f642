import MiniVpn.Lib.Scan
import MiniVpn.Reality.Handshake
import MiniVpn.Reality.HelloGrammar
/-!
# The certificate of a REALITY server

`cert.rs` looks for two things in the first certificate of a Certificate message:
the bytes behind the first place that looks like an ed25519 key, and the last 64
bytes. `verify_server_cert` of `auth.rs` compares the latter with a MAC of the
former; no signature is checked.
-/
open Lib

namespace MiniVpn

namespace Reality

namespace Cert
open ServerHello (must)

def REALITY_SIG_LEN : Nat := 64
def ED25519_PUBKEY_LEN : Nat := 32
def ED25519_SPKI_MARKER : Bytes := [0x06, 0x03, 0x2b, 0x65, 0x70, 0x03, 0x21, 0x00]

def err {α : Type} (m : String) : Except Stop α := Reality.err ("cert: " ++ m)

/-- `ok_or_else`. -/
def ok_or {α : Type} (o : Option α) (m : String) : Except Stop α :=
  match o with
  | some a => .ok a
  | none => err m

def u24 (b : Bytes) : Nat := Wire.ofBe b

def extract_ed25519_pubkey_and_sig (cert_msg : Bytes) : Except Stop (Block 32 × Bytes) := do
  if cert_msg.head? ≠ some 0x0b then err "非 Certificate（handshake type != 0x0b）"
  let hs_len ← ok_or (Wire.slice cert_msg 1 4) "handshake 头截断"
  let body ← ok_or (Wire.slice cert_msg 4 cert_msg.length) "handshake body 截断"
  if u24 hs_len ≠ body.length then err "handshake 长度字段与 body 不符"
  let ctx_len ← ok_or body.head? "ctx_len 截断"
  let p := 1 + ctx_len.toNat
  let list_len ← ok_or (Wire.slice body p (p + 3)) "list_len 截断"
  let p := p + 3
  let list ← ok_or (Wire.slice body p (p + u24 list_len)) "certificate_list 截断"
  let cert_len ← ok_or (Wire.slice list 0 3) "cert_data_len 截断"
  let der ← ok_or (Wire.slice list 3 (3 + u24 cert_len)) "leaf cert DER 截断"
  let pos ← ok_or ((windows ED25519_SPKI_MARKER.length der).findIdx? (· == ED25519_SPKI_MARKER))
    ("未找到 ed25519 SPKI（OID 1.3.101.112）→ 非 ed25519 证书，多半服务端 REALITY auth 失败、回落 decoy。" ++
      "查：①pbk=服务端 public_key(非 private_key) ②SNI∈serverNames ③short_id 匹配")
  let key_start := pos + ED25519_SPKI_MARKER.length
  let key ← ok_or (Wire.slice der key_start (key_start + ED25519_PUBKEY_LEN)) "ed25519 公钥截断"
  let pubkey ← must (Block.try_into 32 key)
  if der.length < REALITY_SIG_LEN then err "leaf DER 太短，无 64B 签名"
  let sig ← must (Wire.slice der (der.length - REALITY_SIG_LEN) der.length)
  return (pubkey, sig)

/-! ## The grammar -/

/-- The body of a Certificate message: a context, and a list whose first entry is
`der`. Nothing is said of the extensions and certificates in `more`, and of what
stands behind the list. -/
def certificateBody (ctx der more tail : Bytes) : Bytes :=
  [UInt8.ofNat ctx.length] ++ (ctx ++ (Wire.be 3 (3 + der.length + more.length) ++
    (Wire.be 3 der.length ++ (der ++ (more ++ tail)))))

/-- `pk` stands behind the first marker of `der`, whose last 64 bytes are `sig`. -/
def IsLeaf (der : Bytes) (pk : Block 32) (sig : Bytes) : Prop :=
  ∃ before after, der = before ++ (ED25519_SPKI_MARKER ++ (pk.1 ++ after)) ∧
    (∀ j < before.length, ¬ ED25519_SPKI_MARKER <+: der.drop j) ∧ sig.length = 64 ∧ sig <:+ der

def IsCertificate (msg : Bytes) (pk : Block 32) (sig : Bytes) : Prop :=
  ∃ ctx der more tail, ctx.length < 256 ∧ (certificateBody ctx der more tail).length < 256 ^ 3 ∧
    msg = [0x0b] ++ (Wire.be 3 (certificateBody ctx der more tail).length ++ certificateBody ctx der more tail) ∧
    IsLeaf der pk sig

/-! ## The parser accepts the grammar -/

theorem err_bind {α β : Type} (m : String) (f : α → Except Stop β) : (err m >>= f) = err m := rfl

theorem ok_or_eq_ok {α : Type} {o : Option α} {m : String} {a : α} : ok_or o m = .ok a ↔ o = some a := by
  cases o <;> simp [ok_or, err, Reality.err]

theorem must_eq_ok {α : Type} {o : Option α} {a : α} : must o = .ok a ↔ o = some a := by
  cases o <;> simp [must]

theorem ite_err_eq_ok {α : Type} {p : Prop} [Decidable p] {m : String} {x : Except Stop α} {a : α} :
    (if p then err m else x) = .ok a ↔ ¬ p ∧ x = .ok a := by
  split <;> simp_all [err, Reality.err]

theorem exists_at {bs : Bytes} {pos n : Nat} (h : pos + n ≤ bs.length) : ∃ a, a.length = n ∧ Wire.At bs pos a := by
  refine ⟨(bs.drop pos).take n, ?_, by omega, (bs.drop pos).drop n, (List.take_append_drop n _).symm⟩
  rw [List.length_take, List.length_drop]
  omega

/-- The key behind the first marker, and the last bytes. -/
theorem isLeaf_iff {der sig : Bytes} {pk : Block 32} : IsLeaf der pk sig ↔
    ∃ pos, (windows ED25519_SPKI_MARKER.length der).findIdx? (· == ED25519_SPKI_MARKER) = some pos ∧
      Wire.At der (pos + 8) pk.1 ∧ 64 ≤ der.length ∧ sig = der.drop (der.length - 64) := by
  simp only [findIdx?_windows (show ED25519_SPKI_MARKER ≠ [] by decide)]
  constructor
  · rintro ⟨before, after, hder, hfirst, hsig, hend⟩
    have hdrop : der.drop before.length = ED25519_SPKI_MARKER ++ (pk.1 ++ after) := by rw [hder, List.drop_left' rfl]
    have hle := hend.length_le
    refine ⟨before.length, ⟨⟨_, hdrop.symm⟩, hfirst⟩, ?_, by omega, ?_⟩
    · have hat : Wire.At der before.length (ED25519_SPKI_MARKER ++ pk.1) :=
        ⟨by rw [hder]; simp, after, by rw [hdrop, List.append_assoc]⟩
      exact (Wire.at_append.1 hat).2
    · rw [← hsig]
      exact List.suffix_iff_eq_drop.1 hend
  · rintro ⟨pos, ⟨⟨back, hback⟩, hfirst⟩, hkey, h64, rfl⟩
    have hlen := congrArg List.length hback
    simp only [List.length_append, List.length_drop, show ED25519_SPKI_MARKER.length = 8 from rfl] at hlen
    have hpos : pos ≤ der.length := by omega
    obtain ⟨-, after, hafter⟩ := Wire.at_append.2 ⟨⟨hpos, back, hback.symm⟩, hkey⟩
    refine ⟨der.take pos, after, ?_, ?_, ?_, List.drop_suffix _ _⟩
    · rw [← List.append_assoc ED25519_SPKI_MARKER, ← hafter, List.take_append_drop]
    · rw [List.length_take_of_le hpos]
      exact hfirst
    · rw [List.length_drop]
      omega

/-- The fields of a body, each at its position. -/
theorem certificateBody_iff {body der : Bytes} : (∃ ctx more tail, ctx.length < 256 ∧ body = certificateBody ctx der more tail) ↔
    ∃ ctx_len list, Wire.At body 0 [ctx_len] ∧ Wire.At body (1 + ctx_len.toNat) (Wire.be 3 list.length) ∧
      Wire.At body (1 + ctx_len.toNat + 3) list ∧ Wire.At list 0 (Wire.be 3 der.length) ∧ Wire.At list 3 der := by
  constructor
  · rintro ⟨ctx, more, tail, hctx, rfl⟩
    have hn : (UInt8.ofNat ctx.length).toNat = ctx.length := by rw [UInt8.toNat_ofNat', Nat.mod_eq_of_lt hctx]
    have hlist : (Wire.be 3 der.length ++ (der ++ more)).length = 3 + der.length + more.length := by simp; omega
    have hbody : Wire.At (certificateBody ctx der more tail) 0 ([UInt8.ofNat ctx.length] ++ (ctx ++
        (Wire.be 3 (3 + der.length + more.length) ++ (Wire.be 3 der.length ++ (der ++ more))))) :=
      Wire.at_zero.2 ⟨tail, by simp [certificateBody]⟩
    simp only [Wire.at_append (a := [_]), Wire.at_append (a := ctx), Wire.at_append (a := Wire.be 3 (_ + _))] at hbody
    obtain ⟨h0, -, hlen, hrest⟩ := hbody
    refine ⟨_, Wire.be 3 der.length ++ (der ++ more), h0, ?_, ?_, Wire.at_zero.2 ⟨_, rfl⟩, ?_⟩
    · rw [hn, hlist]
      exact hlen
    · rw [hn]
      simpa using hrest
    · exact (Wire.at_append.1 (Wire.at_append.1 (Wire.at_zero.2 ⟨[], (List.append_nil _).symm⟩)).2).1
  · rintro ⟨ctx_len, list, h0, hlen, hlist, hder_len, hder⟩
    obtain ⟨ctx, hctx, hat⟩ := @exists_at _ 1 _ hlen.1
    obtain ⟨more, rfl⟩ := Wire.at_zero.1 (Wire.at_append.2 ⟨hder_len, by simpa using hder⟩)
    have hbody : Wire.At body 0 ([ctx_len] ++ (ctx ++ (Wire.be 3 (Wire.be 3 der.length ++ der ++ more).length ++
        (Wire.be 3 der.length ++ der ++ more)))) := by
      refine Wire.at_append.2 ⟨h0, Wire.at_append.2 ⟨hat, Wire.at_append.2 ⟨?_, ?_⟩⟩⟩
      · rw [hctx]
        exact hlen
      · rw [hctx]
        simpa using hlist
    obtain ⟨tail, rfl⟩ := Wire.at_zero.1 hbody
    refine ⟨ctx, more, tail, hctx ▸ ctx_len.toNat_lt, ?_⟩
    rw [certificateBody, hctx, UInt8.ofNat_toNat]
    simp only [List.length_append, Wire.length_be, List.append_assoc, Nat.add_assoc]

/-- The three parts of a handshake message, each at its position. -/
theorem message_iff {msg body : Bytes} : msg = [0x0b] ++ (Wire.be 3 body.length ++ body) ↔
    Wire.At msg 0 [0x0b] ∧ Wire.At msg 1 (Wire.be 3 body.length) ∧ 4 + body.length = msg.length ∧ Wire.At msg 4 body := by
  have hat : Wire.At msg 0 ([0x0b] ++ (Wire.be 3 body.length ++ body)) ↔ Wire.At msg 0 [0x0b] ∧
      Wire.At msg 1 (Wire.be 3 body.length) ∧ Wire.At msg 4 body := by
    rw [Wire.at_append, Wire.at_append, Wire.length_be]
    exact Iff.rfl
  constructor
  · intro h
    obtain ⟨h0, h1, h4⟩ := hat.1 (Wire.at_zero.2 ⟨[], by rw [h, List.append_nil]⟩)
    refine ⟨h0, h1, ?_, h4⟩
    rw [h]
    simp
    omega
  · rintro ⟨h0, h1, hlen, h4⟩
    obtain ⟨back, hback⟩ := Wire.at_zero.1 (hat.2 ⟨h0, h1, h4⟩)
    have hnil := congrArg List.length hback
    simp only [List.length_append, List.length_singleton, Wire.length_be] at hnil
    rw [hback, List.length_eq_zero_iff.1 (by omega : back.length = 0), List.append_nil]

theorem extract_eq_ok {msg sig : Bytes} {pk : Block 32} :
    extract_ed25519_pubkey_and_sig msg = .ok (pk, sig) ↔ IsCertificate msg pk sig := by
  unfold extract_ed25519_pubkey_and_sig
  simp only [err_bind, bind_eq_ok, ite_err_eq_ok, ok_or_eq_ok, must_eq_ok, not_not, Wire.slice_eq_some_iff,
    List.head?_eq_getElem?, Wire.getElem?_eq_some_iff_at]
  constructor
  · rintro ⟨htyp, hs_len, ⟨hlen3, hs⟩, body, hbody, hsize, ctx_len, hctx, list_len, ⟨hlist3, hll⟩, list, ⟨hlistlen, hlist⟩,
      cert_len, ⟨hcert3, hcl⟩, der, ⟨hderlen, hder⟩, pos, hpos, key, ⟨hkey32, hkey⟩, pubkey, hpub, h64, sig', ⟨hsig64, hsig⟩,
      heq⟩
    obtain ⟨rfl, rfl⟩ := Prod.mk.inj (Except.ok.inj heq)
    obtain ⟨rfl, hbody24⟩ := (Wire.ofBe_eq_iff (by omega : hs_len.length = 3)).1 hsize
    obtain ⟨rfl, -⟩ := (Wire.ofBe_eq_iff (by omega : list_len.length = 3)).1 (by unfold u24 at hlistlen; omega :
      Wire.ofBe list_len = list.length)
    obtain ⟨rfl, -⟩ := (Wire.ofBe_eq_iff (by omega : cert_len.length = 3)).1 (by unfold u24 at hderlen; omega :
      Wire.ofBe cert_len = der.length)
    obtain ⟨ctx, more, tail, hctx256, rfl⟩ := certificateBody_iff.2 ⟨ctx_len, list, hctx, hll, hlist, hcl, hder⟩
    refine ⟨ctx, der, more, tail, hctx256, hbody24, message_iff.2 ⟨htyp, hs, hbody⟩, isLeaf_iff.2 ⟨pos, hpos, ?_, ?_, ?_⟩⟩
    · obtain ⟨hlen, hblock⟩ := Option.dite_none_right_eq_some.1 hpub
      rw [← Option.some.inj hblock]
      exact hkey
    · exact not_lt.1 h64
    · obtain ⟨-, back, hback⟩ := hsig
      have hlen := congrArg List.length hback
      rw [List.length_append, List.length_drop] at hlen
      rw [show REALITY_SIG_LEN = 64 from rfl] at hback hsig64 hlen
      rw [hback, List.length_eq_zero_iff.1 (by omega : back.length = 0), List.append_nil]
  · rintro ⟨ctx, der, more, tail, hctx256, hbody24, hmsg, hleaf⟩
    obtain ⟨htyp, hs, hbody⟩ := message_iff.1 hmsg
    obtain ⟨ctx_len, list, hctx, hll, hlist, hcl, hder⟩ :=
      (@certificateBody_iff (certificateBody ctx der more tail) der).1 ⟨ctx, more, tail, hctx256, rfl⟩
    obtain ⟨pos, hpos, hkey, h64, rfl⟩ := isLeaf_iff.1 hleaf
    have hbound : list.length < 256 ^ 3 ∧ der.length < 256 ^ 3 := by
      have h1 := hlist.1
      obtain ⟨-, back, hback⟩ := hlist
      obtain ⟨-, back', hback'⟩ := hder
      have h2 := congrArg List.length hback
      have h3 := congrArg List.length hback'
      rw [List.length_append, List.length_drop] at h2 h3
      omega
    refine ⟨htyp, _, ⟨by simp, hs⟩, _, hbody, Wire.ofBe_be_of_lt hbody24, ctx_len, hctx, _, ⟨by simp, hll⟩, list, ⟨?_, hlist⟩,
      _, ⟨by simp, hcl⟩, der, ⟨?_, hder⟩, pos, hpos, pk.1, ⟨by rw [pk.2]; rfl, hkey⟩, pk, Block.try_into_eq pk.2,
      not_lt.2 h64, _, ⟨?_, by omega, [], (List.append_nil _).symm⟩, rfl⟩
    · rw [u24, Wire.ofBe_be_of_lt hbound.1]
    · rw [u24, Wire.ofBe_be_of_lt hbound.2]
    · rw [List.length_drop, show REALITY_SIG_LEN = 64 from rfl]
      omega

/-! ## The check -/

theorem returns_ite_err {α : Type} {p : Prop} [Decidable p] {m : String} {x : Except Stop α}
    (h : ¬ p → ServerHello.Returns x) : ServerHello.Returns (if p then err m else x) := by
  split
  · exact .inr ⟨_, rfl⟩
  · exact h ‹_›

theorem returns_ok_or_bind {α β : Type} {o : Option α} {m : String} {f : α → Except Stop β}
    (hf : ∀ a, o = some a → ServerHello.Returns (f a)) : ServerHello.Returns (ok_or o m >>= f) := by
  cases o with
  | none => exact .inr ⟨_, rfl⟩
  | some a => exact hf a rfl

/-- Neither the `expect` on the key nor the range of the signature can fail. -/
theorem extract_returns (msg : Bytes) : ServerHello.Returns (extract_ed25519_pubkey_and_sig msg) := by
  unfold extract_ed25519_pubkey_and_sig
  simp only [err_bind]
  refine returns_ite_err fun _ => returns_ok_or_bind fun _ _ => returns_ok_or_bind fun body _ => returns_ite_err fun _ => ?_
  refine returns_ok_or_bind fun _ _ => returns_ok_or_bind fun _ _ => returns_ok_or_bind fun list _ => ?_
  refine returns_ok_or_bind fun _ _ => returns_ok_or_bind fun der _ => returns_ok_or_bind fun pos _ => ?_
  refine returns_ok_or_bind fun key hkey => ?_
  have h32 : key.length = 32 := by
    have hlen := (Wire.slice_eq_some_iff.1 hkey).1
    rw [show ED25519_PUBKEY_LEN = 32 from rfl] at hlen
    omega
  rw [Block.try_into_eq h32, ServerHello.Indexed.must_some]
  refine returns_ite_err fun _ => ?_
  rw [Wire.slice_eq_some (Nat.sub_le _ _) le_rfl, ServerHello.Indexed.must_some]
  exact .pure _

end Cert

/-- HMAC-SHA-512. -/
abbrev HmacSha512 := (key msg : Bytes) → Block 64

def verify_server_cert (mac : HmacSha512) (auth_key ed25519_pubkey : Block 32) (signature : Bytes) : Bool :=
  (mac auth_key.1 ed25519_pubkey.1).1 == signature

/-- The closure that `establish` hands to `drive`. -/
def check_cert (mac : HmacSha512) (auth_key : Block 32) (cert_msg : Bytes) : Except Stop Unit := do
  let (pk, sig) ← Cert.extract_ed25519_pubkey_and_sig cert_msg
  if verify_server_cert mac auth_key pk sig then return ()
  else err "REALITY 服务端证书 HMAC 校验失败（疑被回落到 decoy/SNI 不在 serverNames/pbk 错）"

theorem check_cert_eq_ok {mac : HmacSha512} {auth_key : Block 32} {msg : Bytes} :
    check_cert mac auth_key msg = .ok () ↔ ∃ pk : Block 32, Cert.IsCertificate msg pk (mac auth_key.1 pk.1).1 := by
  rw [check_cert, bind_eq_ok]
  constructor
  · rintro ⟨⟨pk, sig⟩, hextract, hcheck⟩
    dsimp only at hcheck
    split at hcheck
    · rename_i hmac
      refine ⟨pk, ?_⟩
      rw [beq_iff_eq.1 hmac]
      exact Cert.extract_eq_ok.1 hextract
    · cases hcheck
  · rintro ⟨pk, hcert⟩
    refine ⟨_, Cert.extract_eq_ok.2 hcert, ?_⟩
    simp [verify_server_cert, pure, Except.pure]

/-- The check accepts a Certificate message exactly when its first certificate ends
with the MAC of the key in it, and it never panics. -/
theorem check_cert_exact (mac : HmacSha512) (auth_key : Block 32) (msg : Bytes) :
    (∀ pk sig, Cert.extract_ed25519_pubkey_and_sig msg = .ok (pk, sig) ↔ Cert.IsCertificate msg pk sig) ∧
    (check_cert mac auth_key msg = .ok () ↔ ∃ pk : Block 32, Cert.IsCertificate msg pk (mac auth_key.1 pk.1).1) ∧
    ServerHello.Returns (check_cert mac auth_key msg) := by
  refine ⟨fun _ _ => Cert.extract_eq_ok, check_cert_eq_ok, ?_⟩
  refine (Cert.extract_returns msg).bind fun r => ?_
  dsimp only
  split
  · exact .pure _
  · exact .inr ⟨_, rfl⟩

end Reality

end MiniVpn
