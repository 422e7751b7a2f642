import MiniVpn.SocketText
/-!
# Displaying socket addresses

`Display` of `std::net::SocketAddr`: the longest run of zeros in an IPv6 address is
left out, and an address that stands for one of IPv4 ends as that. Whatever the
parser accepts is displayed as a text it reads in the same way.
-/
open Lib Lib.Scanner

namespace MiniVpn

/-! ## The text -/

/-- The first element, and the others with `sep` in front. -/
def join (sep : Char) : List (List Char) → List Char
  | [] => []
  | first :: tail => first ++ tail.flatMap fun x => sep :: x

def ipv4_text (octets : Bytes) : List Char := join '.' (octets.map fun b => Nat.toDigits 10 b.toNat)

/-- `Span`: a run of zeros. -/
structure Span where
  start : Nat
  len : Nat
deriving DecidableEq, Repr

/-- The first of the longest runs of zeros from the group `i` on. -/
def longest_zeroes (i : Nat) (longest current : Span) : List Nat → Span
  | [] => longest
  | segment :: rest =>
    if segment = 0 then
      let start := if current.len = 0 then i else current.start
      let current : Span := { start := start, len := current.len + 1 }
      longest_zeroes (i + 1) (if longest.len < current.len then current else longest) current rest
    else longest_zeroes (i + 1) longest ⟨0, 0⟩ rest

def fmt_subslice (chunk : List Nat) : List Char := join ':' (chunk.map (Nat.toDigits 16))

/-- `to_ipv4_mapped`. -/
def to_ipv4_mapped (octets : Bytes) : Option Bytes :=
  if octets.take 12 = List.replicate 10 0 ++ [0xff, 0xff] then some (octets.drop 12) else none

/-- `Ipv6Addr` by its octets. -/
def octets_text (octets : Bytes) : List Char :=
  let segs := segments octets
  match to_ipv4_mapped octets with
  | some ipv4 => "::ffff:".toList ++ ipv4_text ipv4
  | none =>
    let zeroes := longest_zeroes 0 ⟨0, 0⟩ ⟨0, 0⟩ segs
    if 1 < zeroes.len then
      fmt_subslice (segs.take zeroes.start) ++ "::".toList ++ fmt_subslice (segs.drop (zeroes.start + zeroes.len))
    else fmt_subslice segs

def ipv6_text (ip : BitVec 128) : List Char := octets_text (Wire.be 16 ip.toNat)

/-- `SocketAddr::to_string`. -/
def SocketAddr.to_string : SocketAddr → String
  | .v4 ip port => String.ofList (ipv4_text (Wire.be 4 ip.toNat) ++ ':' :: Nat.toDigits 10 port.toNat)
  | .v6 ip port _ scope_id =>
    let scope := if scope_id = 0 then [] else '%' :: Nat.toDigits 10 scope_id.toNat
    String.ofList ('[' :: ipv6_text ip ++ scope ++ ']' :: ':' :: Nat.toDigits 10 port.toNat)

/-! ## What is displayed is parsed -/

theorem read_octet_text (b : UInt8) : read_octet (Nat.toDigits 10 b.toNat) = some (b, []) := by
  have hall : ∀ n : Fin 256, read_octet (Nat.toDigits 10 n) = some (UInt8.ofNat n, []) := by decide +kernel
  simpa using hall ⟨b.toNat, b.toNat_lt⟩

theorem read_ipv4_addr_text (a b c d : UInt8) :
    read_ipv4_addr (ipv4_text [a, b, c, d]) = some ([a, b, c, d], []) := by
  have hstops : Stops '.' read_octet := (stops_number (by decide) ..).map _
  have hoctet : ∀ (x : UInt8) (r : List Char), read_octet (Nat.toDigits 10 x.toNat ++ '.' :: r) = some (x, '.' :: r) :=
    fun x r => hstops.eq_some_cons_iff.2 ⟨_, rfl, read_octet_text x⟩
  have hdot : ∀ r : List Char, given '.' ('.' :: r) = some ((), r) := fun r => given_eq_some_iff.2 rfl
  simp only [ipv4_text, join, List.map_cons, List.map_nil, List.flatMap_cons, List.flatMap_nil, List.append_nil,
    List.cons_append, read_ipv4_addr, bind_apply, hoctet, hdot, read_octet_text, Option.bind_some]
  rfl

/-- There is a dot in an IPv4 address. -/
theorem read_ipv4_addr_eq_none {s : List Char} (h : '.' ∉ s) : read_ipv4_addr s = none := by
  have hstops : Stops '.' read_octet := (stops_number (by decide) ..).map _
  rw [Option.eq_none_iff_forall_ne_some]
  intro b hb
  obtain ⟨a, r, ha, hb⟩ := bind_eq_some_iff.1 hb
  obtain ⟨_, r', hdot, -⟩ := bind_eq_some_iff.1 hb
  refine h ((hstops.takes ha).subset ?_)
  rw [given_eq_some_iff.1 hdot]
  exact List.mem_cons_self

theorem number_group_text {g : Nat} (h : g < 2 ^ 16) :
    number 16 (2 ^ 16) (some 4) true (Nat.toDigits 16 g) = some (g, []) := by
  have hlen : ¬ 4 < (Nat.toDigits 16 g).length := not_lt.2 ((Nat.length_toDigits_le_iff (by decide) (by decide)).2 h)
  have hvalue := @ofDigits_toDigits 16 (by decide) (by decide) g
  refine number_eq_some_nil_iff.2 ⟨isDigit_of_mem_toDigits (by decide) (by decide) g, ?_⟩
  simp only [numeral, Nat.toDigits_ne_nil, if_false, Option.any_some, hlen, decide_false, Bool.false_eq_true, Bool.not_true,
    Bool.false_and, hvalue, if_pos h]

/-- The groups as they follow each other in the text. -/
def groups_text (first : Bool) : List Nat → List Char
  | [] => []
  | g :: gs => (if first then [] else [':']) ++ (Nat.toDigits 16 g ++ groups_text false gs)

theorem fmt_subslice_eq (gs : List Nat) : fmt_subslice gs = groups_text true gs := by
  have htail : ∀ gs : List Nat, (gs.map (Nat.toDigits 16)).flatMap (fun x => ':' :: x) = groups_text false gs := by
    intro gs
    induction gs with
    | nil => rfl
    | cons g gs ih => simp [groups_text, ih]
  cases gs with
  | nil => rfl
  | cons g gs => simp [fmt_subslice, join, groups_text, htail]

/-- What may stand behind the groups of an address: its end, or the double colon. -/
def Ends (t : List Char) : Prop := t = [] ∨ ∃ r, t = ':' :: ':' :: r

theorem Ends.read_separator_eq_none {β : Type} {p : Scanner β} {t : List Char} (ht : Ends t) (hnil : p [] = none)
    (hcolon : ∀ r, p (':' :: r) = none) (first : Bool) : read_separator ':' first p t = none := by
  rcases ht with rfl | ⟨r, rfl⟩
  · cases first
    · rfl
    · exact hnil
  · cases first
    · exact hcolon r
    · exact hcolon (':' :: r)

theorem read_separator_text {β : Type} (p : Scanner β) (first : Bool) (s : List Char) :
    read_separator ':' first p ((if first then [] else [':']) ++ s) = p s := by
  cases first <;> rfl

/-- A part that stops at a colon, in front of groups that follow. -/
theorem blind_groups_text {β : Type} {p : Scanner β} (hp : Stops ':' p) (s : List Char) {t : List Char} (ht : Ends t)
    (gs : List Nat) : p (s ++ (groups_text false gs ++ t)) =
      (p s).map fun ar => (ar.1, ar.2 ++ (groups_text false gs ++ t)) := by
  have hrest : groups_text false gs ++ t = [] ∨ ∃ r, groups_text false gs ++ t = ':' :: r := by
    cases gs with
    | nil =>
      rcases ht with rfl | ⟨r, rfl⟩
      · exact .inl rfl
      · exact .inr ⟨_, rfl⟩
    | cons g gs => exact .inr ⟨_, rfl⟩
  rcases hrest with hrest | ⟨r, hrest⟩
  · rw [hrest]
    simp
  · rw [hrest, hp.blind]

/-! ### A round of `read_groups` -/

section
variable {limit : Nat} {first : Bool} {s r r' : List Char}

theorem read_groups_ipv4 {octets : Bytes} (hlimit : 0 < limit)
    (h : read_separator ':' first read_ipv4_addr s = some (octets, r)) :
    read_groups (limit + 1) first s = some ((segments octets, true), r) := by
  rw [read_groups, orElse_apply, bind_apply, guard_apply, if_pos hlimit, Option.bind_some, bind_apply, h]
  rfl

theorem read_groups_no_ipv4 (h : read_separator ':' first read_ipv4_addr s = none) : read_groups (limit + 1) first s =
    ((do
      let group ← read_separator ':' first (number 16 (2 ^ 16) (some 4) true)
      let rest ← read_groups limit false
      return (group :: rest.1, rest.2)) <|> pure ([], false) : Scanner (List Nat × Bool)) s := by
  have hnone : (do
      guard (0 < limit)
      let octets ← read_separator ':' first read_ipv4_addr
      return (segments octets, true) : Scanner (List Nat × Bool)) s = none := by
    rw [bind_apply, guard_apply]
    split
    · rw [Option.bind_some, bind_apply, h]
      rfl
    · rfl
  rw [read_groups, orElse_apply, hnone]
  rfl

theorem read_groups_group {g : Nat} {gs : List Nat × Bool} (hipv4 : read_separator ':' first read_ipv4_addr s = none)
    (hgroup : read_separator ':' first (number 16 (2 ^ 16) (some 4) true) s = some (g, r))
    (hrest : read_groups limit false r = some (gs, r')) :
    read_groups (limit + 1) first s = some ((g :: gs.1, gs.2), r') := by
  rw [read_groups_no_ipv4 hipv4, orElse_apply, bind_apply, hgroup, Option.bind_some, bind_apply, hrest]
  rfl

theorem read_groups_end (hipv4 : read_separator ':' first read_ipv4_addr s = none)
    (hgroup : read_separator ':' first (number 16 (2 ^ 16) (some 4) true) s = none) :
    read_groups (limit + 1) first s = some (([], false), s) := by
  rw [read_groups_no_ipv4 hipv4, orElse_apply, bind_apply, hgroup]
  rfl

end

theorem stops_number_group : Stops ':' (number 16 (2 ^ 16) (some 4) true) := stops_number (by decide) ..

/-- A group is not the beginning of an IPv4 address. -/
theorem dot_not_mem_toDigits (g : Nat) : '.' ∉ Nat.toDigits 16 g := by
  intro hmem
  exact absurd (isDigit_of_mem_toDigits (by decide) (by decide) g '.' hmem) (by decide)

theorem read_groups_text {gs : List Nat} (hgs : ∀ g ∈ gs, g < 2 ^ 16) {limit : Nat} (hlen : gs.length ≤ limit)
    {t : List Char} (ht : Ends t) (first : Bool) :
    read_groups limit first (groups_text first gs ++ t) = some ((gs, false), t) := by
  have hstops : Stops ':' read_ipv4_addr := stops_read_ipv4_addr (by decide) (by decide)
  induction gs generalizing limit first with
  | nil =>
    cases limit with
    | zero => rfl
    | succ limit =>
      exact read_groups_end (ht.read_separator_eq_none rfl (fun _ => rfl) first)
        (ht.read_separator_eq_none rfl (fun _ => rfl) first)
  | cons g gs ih =>
    obtain ⟨limit, rfl⟩ : ∃ l, limit = l + 1 := ⟨limit - 1, by simp only [List.length_cons] at hlen; omega⟩
    rw [groups_text, List.append_assoc, List.append_assoc]
    refine read_groups_group (r := groups_text false gs ++ t) ?_ ?_
      (ih (fun g' hg' => hgs g' (List.mem_cons_of_mem _ hg')) (by simpa using hlen) false)
    · rw [read_separator_text, blind_groups_text hstops _ ht, read_ipv4_addr_eq_none (dot_not_mem_toDigits g)]
      rfl
    · rw [read_separator_text, blind_groups_text stops_number_group _ ht, number_group_text (hgs g List.mem_cons_self)]
      rfl

/-! ### The addresses of version 6 -/

theorem segments_append {a : Bytes} (h : a.length % 2 = 0) (b : Bytes) :
    segments (a ++ b) = segments a ++ segments b := by
  induction a, h using Wire.pair_induction with
  | nil => rfl
  | cons x y rest h h' ih => rw [List.cons_append, List.cons_append, segments, segments, ih, List.cons_append]

/-- The segments of an address: half as many as octets, sixteen bits each, which
together are the octets. -/
theorem segments_spec {octets : Bytes} (h : octets.length % 2 = 0) : (segments octets).length * 2 = octets.length ∧
    (∀ g ∈ segments octets, g < 2 ^ 16) ∧ (segments octets).flatMap (Wire.be 2) = octets := by
  induction octets, h using Wire.pair_induction with
  | nil => simp [segments]
  | cons a b rest h h' ih =>
    obtain ⟨hlen, hlt, hflat⟩ := ih
    refine ⟨?_, ?_, ?_⟩
    · simp only [segments, List.length_cons]
      omega
    · rw [segments, List.forall_mem_cons]
      exact ⟨Wire.ofBe_pair_lt a b, hlt⟩
    · rw [segments, List.flatMap_cons, hflat, show Wire.be 2 (Wire.ofBe [a, b]) = [a, b] from Wire.be_ofBe [a, b]]
      rfl

theorem of_segments_segments (ip : BitVec 128) : of_segments (segments (Wire.be 16 ip.toNat)) = ip := by
  have hlen : (Wire.be 16 ip.toNat).length % 2 = 0 := by rw [Wire.length_be]
  rw [of_segments, (segments_spec hlen).2.2, Wire.ofBe_be_of_lt (n := 16) ip.isLt, BitVec.ofNat_toNat, BitVec.setWidth_eq]

/-- A run of zeros in `done`. -/
def IsRun (done : List Nat) (z : Span) : Prop :=
  ∃ pre post, done = pre ++ List.replicate z.len 0 ++ post ∧ pre.length = z.start

theorem IsRun.append {done : List Nat} {z : Span} (h : IsRun done z) (more : List Nat) : IsRun (done ++ more) z := by
  obtain ⟨pre, post, rfl, hpre⟩ := h
  exact ⟨pre, post ++ more, by simp, hpre⟩

/-- `current` is the run of zeros at the end of `done`, `longest` some run in it. -/
theorem isRun_longest_zeroes {done rest : List Nat} {longest current : Span} (hlongest : IsRun done longest)
    (hcurrent : current.len = 0 ∨ ∃ pre, done = pre ++ List.replicate current.len 0 ∧ pre.length = current.start) :
    IsRun (done ++ rest) (longest_zeroes done.length longest current rest) := by
  induction rest generalizing done longest current with
  | nil => exact hlongest.append []
  | cons segment rest ih =>
    have hnext : done ++ segment :: rest = (done ++ [segment]) ++ rest := by simp
    have hlen : done.length + 1 = (done ++ [segment]).length := by simp
    rw [hnext, longest_zeroes, hlen]
    split
    · rename_i hzero
      subst hzero
      -- The run at the end grows, or begins here.
      have hgrown : ∃ pre, done ++ [0] = pre ++ List.replicate (current.len + 1) 0 ∧
          pre.length = if current.len = 0 then done.length else current.start := by
        by_cases h0 : current.len = 0
        · exact ⟨done, by simp [h0], by simp [h0]⟩
        · obtain ⟨pre, rfl, hpre⟩ := hcurrent.resolve_left h0
          exact ⟨pre, by simp [List.replicate_succ'], by simp [h0, hpre]⟩
      refine ih ?_ (.inr hgrown)
      by_cases hlt : longest.len < current.len + 1
      · obtain ⟨pre, hpre, hstart⟩ := hgrown
        rw [if_pos hlt]
        exact ⟨pre, [], by simpa using hpre, hstart⟩
      · rw [if_neg hlt]
        exact hlongest.append [0]
    · exact ih (hlongest.append [segment]) (.inl rfl)

/-- Fewer than eight groups, a double colon and the groups behind it. -/
theorem read_ipv6_addr_colons {head tail : List Nat} {v4 : Bool} {s t : List Char} (hhead : ∀ g ∈ head, g < 2 ^ 16)
    (hlen : head.length < 8) (ht : read_groups (8 - (head.length + 1)) true s = some ((tail, v4), t)) :
    read_ipv6_addr (fmt_subslice head ++ ':' :: ':' :: s) =
      some (of_segments (head ++ List.replicate (8 - head.length - tail.length) 0 ++ tail), t) := by
  have hread : read_groups 8 true (fmt_subslice head ++ ':' :: ':' :: s) = some ((head, false), ':' :: ':' :: s) := by
    rw [fmt_subslice_eq]
    exact read_groups_text hhead (by omega) (.inr ⟨s, rfl⟩) true
  rw [read_ipv6_addr, bind_apply, hread, Option.bind_some, if_neg (by simp; omega)]
  simp only [bind_apply, guard_apply, if_true, Option.bind_some, given, ht]
  rfl

/-- Eight groups. -/
theorem read_ipv6_addr_groups {groups : List Nat} (hgroups : ∀ g ∈ groups, g < 2 ^ 16) (hlen : groups.length = 8) :
    read_ipv6_addr (fmt_subslice groups) = some (of_segments groups, []) := by
  have hread := read_groups_text hgroups hlen.le (.inl rfl) true
  rw [List.append_nil, ← fmt_subslice_eq] at hread
  rw [read_ipv6_addr, bind_apply, hread, Option.bind_some, if_pos hlen]
  rfl

/-- An IPv4 address behind a group. -/
theorem read_groups_mapped (a b c d : UInt8) : read_groups 7 true ("ffff:".toList ++ ipv4_text [a, b, c, d]) =
    some ((0xffff :: segments [a, b, c, d], true), []) := by
  have hstops : Stops ':' read_ipv4_addr := stops_read_ipv4_addr (by decide) (by decide)
  have hlast : read_groups 6 false (':' :: ipv4_text [a, b, c, d]) = some ((segments [a, b, c, d], true), []) :=
    read_groups_ipv4 (by decide) (read_ipv4_addr_text a b c d)
  have hffff : "ffff:".toList ++ ipv4_text [a, b, c, d] = Nat.toDigits 16 0xffff ++ ':' :: ipv4_text [a, b, c, d] := rfl
  rw [hffff]
  refine read_groups_group ?_ ?_ hlast
  · refine (hstops.blind _ _).trans ?_
    rw [read_ipv4_addr_eq_none (dot_not_mem_toDigits _)]
    rfl
  · exact stops_number_group.eq_some_cons_iff.2 ⟨_, rfl, @number_group_text 0xffff (by decide)⟩

theorem read_ipv6_addr_mapped {octets ipv4 : Bytes} (hlen : octets.length = 16) (h : to_ipv4_mapped octets = some ipv4) :
    read_ipv6_addr ("::ffff:".toList ++ ipv4_text ipv4) = some (of_segments (segments octets), []) := by
  simp only [to_ipv4_mapped, Option.ite_none_right_eq_some, Option.some.injEq] at h
  obtain ⟨htake, hdrop⟩ := h
  have hocts : octets = (List.replicate 10 0 ++ [0xff, 0xff]) ++ ipv4 := by
    rw [← htake, ← hdrop, List.take_append_drop]
  obtain ⟨a, b, c, d, rfl⟩ : ∃ a b c d, ipv4 = [a, b, c, d] := by
    have hsize : ipv4.length = 4 := by
      rw [← hdrop, List.length_drop, hlen]
    rcases ipv4 with _ | ⟨a, _ | ⟨b, _ | ⟨c, _ | ⟨d, _ | ⟨e, rest⟩⟩⟩⟩⟩ <;> simp at hsize
    exact ⟨a, b, c, d, rfl⟩
  have hread := @read_ipv6_addr_colons [] _ _ _ _ (by simp) (by decide) (read_groups_mapped a b c d)
  rw [hocts, segments_append (by decide)]
  exact hread

/-- The text with the run `z` of zeros left out. -/
theorem read_ipv6_addr_run {groups : List Nat} (hgroups : ∀ g ∈ groups, g < 2 ^ 16) (hlen : groups.length = 8) {z : Span}
    (hz : IsRun groups z) (h1 : 1 < z.len) :
    read_ipv6_addr (fmt_subslice (groups.take z.start) ++ "::".toList ++ fmt_subslice (groups.drop (z.start + z.len))) =
      some (of_segments groups, []) := by
  obtain ⟨pre, post, rfl, hpre⟩ := hz
  have htake : (pre ++ List.replicate z.len 0 ++ post).take z.start = pre := by
    rw [List.append_assoc, List.take_left' hpre]
  have hdrop : (pre ++ List.replicate z.len 0 ++ post).drop (z.start + z.len) = post :=
    List.drop_left' (by simp [hpre])
  simp only [List.length_append, List.length_replicate] at hlen
  have hpost : read_groups (8 - (pre.length + 1)) true (fmt_subslice post) = some ((post, false), []) := by
    have hread := @read_groups_text post (fun g hg => hgroups g (by simp [hg])) (8 - (pre.length + 1)) (by omega) []
      (.inl rfl) true
    rwa [List.append_nil, ← fmt_subslice_eq] at hread
  have hread := read_ipv6_addr_colons (fun g hg => hgroups g (by simp [hg])) (by omega) hpost
  rw [show 8 - pre.length - post.length = z.len by omega] at hread
  rw [htake, hdrop, List.append_assoc]
  exact hread

theorem read_ipv6_addr_octets {octets : Bytes} (hoctets : octets.length = 16) :
    read_ipv6_addr (octets_text octets) = some (of_segments (segments octets), []) := by
  obtain ⟨hlen, hlt, -⟩ := @segments_spec octets (by rw [hoctets])
  have hrun := @isRun_longest_zeroes [] (segments octets) ⟨0, 0⟩ ⟨0, 0⟩ ⟨[], [], rfl, rfl⟩ (.inl rfl)
  rw [octets_text]
  cases hmapped : to_ipv4_mapped octets with
  | some ipv4 => exact read_ipv6_addr_mapped hoctets hmapped
  | none =>
    simp only
    split
    · rename_i h1
      exact read_ipv6_addr_run hlt (by omega) hrun h1
    · exact read_ipv6_addr_groups hlt (by omega)

theorem read_ipv6_addr_text (ip : BitVec 128) : read_ipv6_addr (ipv6_text ip) = some (ip, []) := by
  rw [ipv6_text, read_ipv6_addr_octets (Wire.length_be ..), of_segments_segments]

/-- The text between the brackets. -/
theorem read_ipv6_scoped_text (ip : BitVec 128) (scope_id : UInt32) : read_ipv6_scoped
    (ipv6_text ip ++ if scope_id = 0 then [] else '%' :: Nat.toDigits 10 scope_id.toNat) = some ((ip, scope_id), []) := by
  have hip := read_ipv6_addr_text ip
  split
  · rename_i h0
    subst h0
    rw [List.append_nil, read_ipv6_scoped, bind_apply, hip]
    rfl
  · have hstops : Stops '%' read_ipv6_addr := stops_read_ipv6_addr (by decide) (by decide) (by decide) (by decide)
    have hscope : read_scope_id ('%' :: Nat.toDigits 10 scope_id.toNat) = some (scope_id, []) := by
      refine bind_eq_some_iff.2 ⟨(), _, given_eq_some_iff.2 rfl, map_eq_some_iff.2 ⟨scope_id.toNat, ?_, UInt32.ofNat_toNat⟩⟩
      exact number_decimal_iff.2 ⟨isDecimal_toDigits _, scope_id.toNat_lt⟩
    rw [read_ipv6_scoped, bind_apply, hstops.eq_some_cons_iff.2 ⟨_, rfl, hip⟩, Option.bind_some, bind_apply, orElse_apply,
      hscope]
    rfl

theorem from_str_v4_text (ip : Ipv4Addr) (port : UInt16) :
    SocketAddr.from_str (SocketAddr.v4 ip port).to_string = some (.v4 ip port) := by
  refine (from_str_host_port_iff (isDecimal_toDigits port.toNat)).2 ⟨port.toNat_lt, .v4 ip, ?_, by rw [UInt16.ofNat_toNat]⟩
  have hhost := IsHost.v4 (read_ipv4_addr_text (UInt8.ofNat (ip.toNat / 256 / 256 / 256)) (UInt8.ofNat (ip.toNat / 256 / 256))
    (UInt8.ofNat (ip.toNat / 256)) (UInt8.ofNat ip.toNat))
  have hbe : Wire.be 4 ip.toNat = [UInt8.ofNat (ip.toNat / 256 / 256 / 256), UInt8.ofNat (ip.toNat / 256 / 256),
    UInt8.ofNat (ip.toNat / 256), UInt8.ofNat ip.toNat] := rfl
  rw [← hbe, Wire.ofBe_be_of_lt (n := 4) ip.toNat_lt, UInt32.ofNat_toNat] at hhost
  exact hhost

/-- The flow information is not displayed. -/
theorem from_str_v6_text (ip : BitVec 128) (port : UInt16) (scope_id : UInt32) :
    SocketAddr.from_str (SocketAddr.v6 ip port 0 scope_id).to_string = some (.v6 ip port 0 scope_id) := by
  have hhost := IsHost.v6 (read_ipv6_scoped_text ip scope_id)
  have htext := (from_str_host_port_iff (isDecimal_toDigits port.toNat)).2 ⟨port.toNat_lt, _, hhost, rfl⟩
  rw [UInt16.ofNat_toNat] at htext
  rw [SocketAddr.to_string]
  simpa using htext

/-- What was parsed is displayed as a text that is parsed alike. -/
theorem from_str_to_string {s : String} {addr : SocketAddr} (h : SocketAddr.from_str s = some addr) :
    SocketAddr.from_str addr.to_string = some addr := by
  obtain ⟨w, ds, mk, port, -, hhost, -, rfl⟩ := from_str_eq_some_iff.1 h
  cases hhost with
  | v4 => exact from_str_v4_text ..
  | v6 => exact from_str_v6_text ..

end MiniVpn
