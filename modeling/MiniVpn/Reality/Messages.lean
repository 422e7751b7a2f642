import MiniVpn.Reality.Authentication
/-!
# Handshake messages and the pieces they come in

`HandshakeReassembler` over whole histories of pushes: the records of the flight
need not end where its messages end, and no cut of the stream is seen in what
comes out.
-/
open Lib

namespace MiniVpn

namespace Reality

/-! ## Cutting messages -/

/-- A handshake message: its type, the length of the body, and the body. -/
def Framed (msg : Bytes) : Prop := ∃ typ body, body.length < 2 ^ 24 ∧ msg = typ :: Wire.be 3 body.length ++ body

theorem cut_messages_nil : cut_messages [] = ([], []) := by
  unfold cut_messages
  rfl

theorem cut_messages_framed {msg : Bytes} (h : Framed msg) (rest : Bytes) :
    cut_messages (msg ++ rest) = (msg :: (cut_messages rest).1, (cut_messages rest).2) := by
  obtain ⟨typ, body, hlen, rfl⟩ := h
  have hbe : ∃ l₂ l₁ l₀, Wire.be 3 body.length = [l₂, l₁, l₀] := ⟨_, _, _, rfl⟩
  obtain ⟨l₂, l₁, l₀, hl⟩ := hbe
  have hof : Wire.ofBe [l₂, l₁, l₀] = body.length := by
    rw [← hl]
    exact Wire.ofBe_be_of_lt hlen
  rw [hl]
  simp only [List.cons_append, List.nil_append]
  rw [cut_messages]
  simp only [hof, List.length_append]
  rw [if_neg (by omega)]
  simp

/-- A sequence of whole messages is cut into these messages. -/
theorem cut_messages_flatten {msgs : List Bytes} (h : ∀ m ∈ msgs, Framed m) (rest : Bytes) :
    cut_messages (msgs.flatten ++ rest) = (msgs ++ (cut_messages rest).1, (cut_messages rest).2) := by
  induction msgs with
  | nil => rfl
  | cons m msgs ih =>
    rw [List.flatten_cons, List.append_assoc, cut_messages_framed (h m List.mem_cons_self),
      ih fun m' hm' => h m' (List.mem_cons_of_mem _ hm')]
    rfl

theorem ofBe_triple_lt (a b c : UInt8) : Wire.ofBe [a, b, c] < 2 ^ 24 := by
  have ha := a.toNat_lt
  have hb := b.toNat_lt
  have hc := c.toNat_lt
  simp [Wire.ofBe]
  omega

/-- A header followed by as many bytes as it says. -/
theorem framed_of_header (typ l₂ l₁ l₀ : UInt8) {body : Bytes} (h : body.length = Wire.ofBe [l₂, l₁, l₀]) :
    Framed (typ :: l₂ :: l₁ :: l₀ :: body) := by
  refine ⟨typ, body, by rw [h]; exact ofBe_triple_lt l₂ l₁ l₀, ?_⟩
  rw [h, show Wire.be 3 (Wire.ofBe [l₂, l₁, l₀]) = [l₂, l₁, l₀] from Wire.be_ofBe [l₂, l₁, l₀]]
  rfl

theorem framed_of_mem_cut {buf m : Bytes} (h : m ∈ (cut_messages buf).1) : Framed m := by
  fun_induction cut_messages buf with
  | case1 typ l₂ l₁ l₀ rest len hlt => cases h
  | case2 typ l₂ l₁ l₀ rest len hge out buf heq ih =>
    rw [heq] at ih
    rcases List.mem_cons.1 h with rfl | hm
    · exact framed_of_header typ l₂ l₁ l₀ (by rw [List.length_take]; omega)
    · exact ih hm
  | case3 buf => cases h

/-- Bytes that arrive later are cut as if they had been there before. -/
theorem cut_messages_append (a b : Bytes) : cut_messages (a ++ b) =
    ((cut_messages a).1 ++ (cut_messages ((cut_messages a).2 ++ b)).1, (cut_messages ((cut_messages a).2 ++ b)).2) := by
  have hcut := (cut_messages_spec a).2
  conv_lhs => rw [← hcut, List.append_assoc]
  exact cut_messages_flatten (fun m hm => framed_of_mem_cut hm) _

/-- What is left is the beginning of a message. -/
theorem cut_messages_rest (buf : Bytes) :
    ∃ m, Framed m ∧ (cut_messages buf).2 <+: m ∧ (cut_messages buf).2 ≠ m := by
  fun_induction cut_messages buf with
  | case1 typ l₂ l₁ l₀ rest len hlt =>
    have hlen : (rest ++ List.replicate (len - rest.length) 0).length = len := by
      rw [List.length_append, List.length_replicate]
      omega
    refine ⟨_, framed_of_header typ l₂ l₁ l₀ hlen, ⟨List.replicate (len - rest.length) 0, rfl⟩, fun heq => ?_⟩
    have hsize := congrArg List.length heq
    simp only [List.length_cons] at hsize
    omega
  | case2 typ l₂ l₁ l₀ rest len hge out buf heq ih =>
    rw [heq] at ih
    exact ih
  | case3 buf hshort =>
    -- The header itself is not complete: it is continued by zeros.
    have hbody : ∀ n, (List.replicate n (0 : UInt8)).length = n := fun _ => List.length_replicate
    rcases buf with _ | ⟨typ, _ | ⟨l₂, _ | ⟨l₁, _ | ⟨l₀, rest⟩⟩⟩⟩
    · exact ⟨_, framed_of_header 0 0 0 0 (hbody _), List.nil_prefix, by simp⟩
    · exact ⟨_, framed_of_header typ 0 0 0 (hbody _), ⟨_, rfl⟩, by simp⟩
    · exact ⟨_, framed_of_header typ l₂ 0 0 (hbody _), ⟨_, rfl⟩, by simp⟩
    · exact ⟨_, framed_of_header typ l₂ l₁ 0 (hbody _), ⟨_, rfl⟩, by simp⟩
    · exact absurd rfl (hshort typ l₂ l₁ l₀ rest)

/-- Nothing is left exactly of a sequence of whole messages. -/
theorem cut_messages_rest_eq_nil_iff (buf : Bytes) :
    (cut_messages buf).2 = [] ↔ ∃ msgs : List Bytes, (∀ m ∈ msgs, Framed m) ∧ buf = msgs.flatten := by
  constructor
  · intro h
    refine ⟨(cut_messages buf).1, fun m hm => framed_of_mem_cut hm, ?_⟩
    have hcut := (cut_messages_spec buf).2
    rw [h, List.append_nil] at hcut
    exact hcut.symm
  · rintro ⟨msgs, hmsgs, rfl⟩
    have hcut := cut_messages_flatten hmsgs []
    rw [List.append_nil, cut_messages_nil] at hcut
    rw [hcut]

/-! ## A history of pushes -/

namespace HandshakeReassembler

def is_empty (r : HandshakeReassembler) : Bool := r.buf.isEmpty

/-- Pushes one after the other, with all the messages they return. -/
def push_all (r : HandshakeReassembler) : List Bytes → List Bytes × HandshakeReassembler
  | [] => ([], r)
  | data :: chunks => ((r.push data).1 ++ (push_all (r.push data).2 chunks).1, (push_all (r.push data).2 chunks).2)

/-- Two pushes are one push of both pieces. -/
theorem push_push (r : HandshakeReassembler) (a b : Bytes) :
    r.push (a ++ b) = ((r.push a).1 ++ ((r.push a).2.push b).1, ((r.push a).2.push b).2) := by
  simp only [push]
  rw [← List.append_assoc, cut_messages_append]

/-- Between pushes the buffer holds no whole message, so a push of nothing finds none. -/
theorem push_nil {r : HandshakeReassembler} (h : cut_messages r.buf = ([], r.buf)) : r.push [] = ([], r) := by
  simp only [push, List.append_nil]
  rw [h]

/-- The buffer after a push is one in which nothing is left to cut. -/
theorem cut_buf_push (r : HandshakeReassembler) (data : Bytes) :
    cut_messages (r.push data).2.buf = ([], (r.push data).2.buf) := by
  have hcut := cut_messages_append (r.buf ++ data) []
  simp only [List.append_nil] at hcut
  obtain ⟨hout, hbuf⟩ := Prod.mk.inj hcut
  exact Prod.ext (List.self_eq_append_right.1 hout) hbuf.symm

theorem push_all_eq_push {r : HandshakeReassembler} (h : cut_messages r.buf = ([], r.buf)) (chunks : List Bytes) :
    r.push_all chunks = r.push chunks.flatten := by
  induction chunks generalizing r with
  | nil => exact (push_nil h).symm
  | cons data chunks ih =>
    rw [push_all, ih (cut_buf_push r data), List.flatten_cons, push_push]

/-- However a stream is cut into pushes, nothing is lost, the messages and the
buffer are those of a single push, every message is as long as its header says,
and the buffer is a strict prefix of a message: it is empty exactly when the
stream is a sequence of whole messages. -/
theorem push_all_chunks (chunks : List Bytes) :
    (new.push_all chunks).1.flatten ++ (new.push_all chunks).2.buf = chunks.flatten ∧
    new.push_all chunks = new.push chunks.flatten ∧
    (∀ m ∈ (new.push_all chunks).1, Framed m) ∧
    (∃ m, Framed m ∧ (new.push_all chunks).2.buf <+: m ∧ (new.push_all chunks).2.buf ≠ m) ∧
    ((new.push_all chunks).2.is_empty = true ↔
      ∃ msgs : List Bytes, (∀ m ∈ msgs, Framed m) ∧ chunks.flatten = msgs.flatten) := by
  have heq : new.push_all chunks = new.push chunks.flatten := push_all_eq_push cut_messages_nil chunks
  refine ⟨?_, heq, ?_, ?_, ?_⟩
  · rw [heq]
    exact (cut_messages_spec chunks.flatten).2
  · rw [heq]
    exact fun m hm => framed_of_mem_cut hm
  · rw [heq]
    exact cut_messages_rest chunks.flatten
  · rw [heq, is_empty, List.isEmpty_iff]
    exact cut_messages_rest_eq_nil_iff chunks.flatten

/-- A message of no body and one of two bytes, cut inside both headers. -/
example : (new.push_all [[14], [0, 0], [], [0, 20, 0, 0], [2, 7, 8, 20]]).1 = [[14, 0, 0, 0], [20, 0, 0, 2, 7, 8]] := by
  decide +kernel

end HandshakeReassembler

end Reality
end MiniVpn
