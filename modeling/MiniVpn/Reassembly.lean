import Mathlib.Data.List.MinMax
import Mathlib.Data.Prod.Lex
import MiniVpn.Lib.Runs
import MiniVpn.Lib.Slots
import MiniVpn.Packets
/-!
# The reassembler over a whole trace

`since key tr` are the fragments accepted for `key` in the trace since its entry
was created. `accept` answers from them alone: it returns the packet exactly
when they are complete. The slots, the `received` counter and the eviction are
the means; `reassembler_trace_spec` does not mention them.
-/
open Lib

namespace MiniVpn

/-- The packet a fragment belongs to. -/
def PacketMeta.key (m : PacketMeta) : UInt16 × UInt16 := (m.assoc_id, m.pkt_id)

/-- One fragment of several. -/
def PacketMeta.Several (m : PacketMeta) : Prop := 1 < m.frag_total ∧ m.frag_id < m.frag_total

instance (m : PacketMeta) : Decidable m.Several := inferInstanceAs (Decidable (_ ∧ _))

namespace FragReassembler

/-! ## The victim -/

/-- The key of `min_by_key`. -/
def age (x : (UInt16 × UInt16) × FragPartial) : Nat ×ₗ (Nat ×ₗ Nat) :=
  toLex (x.2.first_seen, toLex (x.1.1.toNat, x.1.2.toNat))

theorem older_iff (a b : (UInt16 × UInt16) × FragPartial) : older a b = true ↔ age a < age b := by
  simp [older, age, Prod.Lex.toLex_lt_toLex, UInt16.lt_iff_toNat_lt, UInt16.toNat_inj]

theorem min_by_key_eq_argmin (l : List ((UInt16 × UInt16) × FragPartial)) : min_by_key l = l.argmin age := by
  induction l with
  | nil => rfl
  | cons e es ih =>
    rw [min_by_key, ih, List.argmin_cons]
    cases List.argmin age es with
    | none => rfl
    | some v => simp only [older_iff]

/-- An entry with the least `(first_seen, key)`. -/
def Oldest (r : FragReassembler) (v : (UInt16 × UInt16) × FragPartial) : Prop :=
  r.partials.get v.1 = some v.2 ∧ ∀ key p, r.partials.get key = some p → age v ≤ age (key, p)

theorem evict_if_full_eq {r : FragReassembler} (h : 0 < r.partials.len) (hfull : r.cap ≤ r.partials.len) :
    ∃ v, Oldest r v ∧ r.evict_if_full = { r with partials := r.partials.remove v.1 } := by
  cases hm : min_by_key r.partials.iter with
  | none =>
    rw [min_by_key_eq_argmin, List.argmin_eq_none] at hm
    simp [Table.len, hm] at h
  | some v =>
    refine ⟨v, ?_, by rw [evict_if_full, if_neg (by omega), hm]⟩
    rw [min_by_key_eq_argmin] at hm
    exact ⟨Table.mem_iter.1 (List.argmin_mem hm), fun key p hp => List.le_of_mem_argmin (Table.mem_iter.2 hp) hm⟩

/-! ## Making room -/

def Bounded (r : FragReassembler) : Prop := 0 < r.cap ∧ r.partials.len ≤ r.cap

/-- What `accept` leaves of the other packets; `gone` is the one it evicts. -/
structure Evicts (r : FragReassembler) (key : UInt16 × UInt16) (gone : Option ((UInt16 × UInt16) × FragPartial))
    (r' : FragReassembler) : Prop where
  full : gone.isSome = true ↔ r.partials.get key = none ∧ r.cap ≤ r.partials.len
  oldest : ∀ v ∈ gone, Oldest r v
  others : ∀ key' p, key' ≠ key → (r'.partials.get key' = some p ↔ r.partials.get key' = some p ∧ gone ≠ some (key', p))

/-- There is room for `key`, unless it has an entry. -/
structure Room (r : FragReassembler) (key : UInt16 × UInt16) (r' : FragReassembler) : Prop where
  cap : r'.cap = r.cap
  le : r'.partials.len ≤ r.cap
  lt : r'.partials.get key = none → r'.partials.len < r.cap

theorem exists_room {r : FragReassembler} (hb : Bounded r) (key : UInt16 × UInt16) (n : Nat) :
    ∃ gone, Evicts r key gone ((r.drop_stale key n).make_room key) ∧
      Room r key ((r.drop_stale key n).make_room key) := by
  cases hget : r.partials.get key with
  | some p =>
    have hlen := Table.len_of_get hget
    have hle := hb.2
    by_cases hn : p.frags.length = n
    · have heq : (r.drop_stale key n).make_room key = r := by
        simp [drop_stale, hget, hn, make_room, Table.contains_key]
      rw [heq]
      exact ⟨none, ⟨by simp [hget], by simp, by simp⟩, ⟨rfl, hle, by simp [hget]⟩⟩
    · -- A packet with another number of fragments is dropped, which makes room.
      have heq : (r.drop_stale key n).make_room key = { r with partials := r.partials.remove key } := by
        simp only [drop_stale, hget, Option.any_some, bne_iff_ne, ne_eq, hn, not_false_eq_true, if_true, make_room,
          Table.contains_key, Table.get_remove_self, Option.isSome_none, Bool.false_eq_true, if_false, evict_if_full]
        rw [if_pos (by omega)]
      rw [heq]
      refine ⟨none, ⟨by simp [hget], by simp, fun key' p' hne => ?_⟩, ⟨rfl, ?_, fun _ => ?_⟩⟩
      · simp [Table.get_remove_ne _ hne]
      · show (r.partials.remove key).len ≤ r.cap
        omega
      · show (r.partials.remove key).len < r.cap
        omega
  | none =>
    have heq : (r.drop_stale key n).make_room key = r.evict_if_full := by
      simp [drop_stale, hget, make_room, Table.contains_key]
    rw [heq]
    by_cases hfull : r.cap ≤ r.partials.len
    · obtain ⟨v, hold, hev⟩ := evict_if_full_eq (Nat.lt_of_lt_of_le hb.1 hfull) hfull
      have hlen := Table.len_of_get hold.1
      have hle := hb.2
      rw [hev]
      refine ⟨some v, ⟨by simp [hget, hfull], by rintro _ ⟨⟩; exact hold, fun key' p _ => ?_⟩, ⟨rfl, ?_, fun _ => ?_⟩⟩
      · simp only [Table.get_remove]
        split
        · rename_i hk
          subst hk
          simp only [false_iff, not_and, not_not, reduceCtorEq]
          intro hp
          rw [hold.1] at hp
          rw [← Option.some.inj hp]
        · rename_i hk
          simp only [ne_eq, Option.some.injEq, iff_self_and]
          rintro _ rfl
          exact hk rfl
      · show (r.partials.remove v.1).len ≤ r.cap
        omega
      · show (r.partials.remove v.1).len < r.cap
        omega
    · rw [evict_if_full, if_pos (by omega)]
      exact ⟨none, ⟨by simp [hfull], by simp, by simp⟩, ⟨rfl, hb.2, fun _ => by omega⟩⟩

/-- What happens to the entry of `key` is no matter of the others. -/
theorem Evicts.of_others {r r₁ : FragReassembler} {key : UInt16 × UInt16} {gone : Option ((UInt16 × UInt16) × FragPartial)}
    (h : Evicts r key gone r₁) {partials : Table (UInt16 × UInt16) FragPartial}
    (hsame : ∀ key', key' ≠ key → partials.get key' = r₁.partials.get key') :
    Evicts r key gone { r₁ with partials := partials } := by
  refine ⟨h.full, h.oldest, fun key' p hne => ?_⟩
  simp only [hsame key' hne]
  exact h.others key' p hne

theorem Room.len_insert {r r₁ : FragReassembler} {key : UInt16 × UInt16} (h : Room r key r₁) (p : FragPartial) :
    (r₁.partials.insert key p).len ≤ r.cap := by
  cases hget : r₁.partials.get key with
  | none =>
    rw [Table.len_insert_of_get_none hget]
    exact h.lt hget
  | some p' =>
    rw [Table.len_insert_of_get hget]
    exact h.le

/-! ## One fragment of several -/

/-- The packet of `m` is in progress, with the same number of fragments. -/
def holds (r : FragReassembler) (m : PacketMeta) : Bool :=
  (r.partials.get m.key).any fun p => p.frags.length == m.frag_total.toNat

/-- What `accept` does with a fragment, told from the fragments `log` accepted
for its packet so far, this one included. -/
structure Accepted (r : FragReassembler) (m : PacketMeta) (now : Nat) (log : List (Nat × Bytes)) (out : Option Bytes)
    (r' : FragReassembler) : Prop where
  complete : ∀ w, out = some w ↔ (∀ i < m.frag_total.toNat, ∃ d, (i, d) ∈ log) ∧
    w = ((List.range m.frag_total.toNat).filterMap (latest log)).flatten
  gone : out.isSome = true → r'.partials.get m.key = none
  entry : out = none → ∃ p, r'.partials.get m.key = some p ∧ p.frags.length = m.frag_total.toNat ∧
    Mirrors p.frags log ∧
    (if r.holds m then ∃ q, r.partials.get m.key = some q ∧ p.first_seen = q.first_seen else p.first_seen = now)
  evicts : ∃ gone, Evicts r m.key gone r'

theorem store_first_seen {p q : FragPartial} {i : Nat} {data : Bytes} (h : p.store i data = some q) :
    q.first_seen = p.first_seen := by
  simp only [FragPartial.store, Option.bind_eq_bind, Option.bind_eq_some_iff] at h
  obtain ⟨slot, -, hq⟩ := h
  obtain rfl := Option.some.inj hq
  rfl

/-- The slots a fragment is stored in, and when they were created. -/
theorem entry_spec (r : FragReassembler) (m : PacketMeta) (now : Nat) :
    let p := ((r.drop_stale m.key m.frag_total.toNat).make_room m.key).entry m.key m.frag_total.toNat now
    p.frags.length = m.frag_total.toNat ∧
    (r.holds m = true ∧ r.partials.get m.key = some p ∨
      r.holds m = false ∧ p.frags = List.replicate m.frag_total.toNat none ∧ p.first_seen = now) := by
  refine ⟨length_entry r m.key m.frag_total.toNat now, ?_⟩
  rcases r.entry_cases m.key m.frag_total.toNat now with ⟨hget, hlen⟩ | ⟨hother, hp⟩
  · refine .inl ⟨?_, hget⟩
    simp only [holds, hget, Option.any_some, hlen, beq_self_eq_true]
  · refine .inr ⟨?_, by rw [hp], by rw [hp]⟩
    cases hget : r.partials.get m.key with
    | none => simp [holds, hget]
    | some q => simpa [holds, hget] using hother q hget

/-- The slots mirror the fragments accepted before, so they do with another one. -/
theorem entry_mirrors {r : FragReassembler} {m : PacketMeta} {now : Nat} {log : List (Nat × Bytes)}
    (hlog : ∀ p, r.partials.get m.key = some p → Mirrors p.frags log) :
    Mirrors ((((r.drop_stale m.key m.frag_total.toNat).make_room m.key).entry m.key m.frag_total.toNat now).frags.set
      m.frag_id.toNat (some m.data)) ((if r.holds m then log else []) ++ [(m.frag_id.toNat, m.data)]) := by
  refine Mirrors.set ?_ _ _
  rcases (r.entry_spec m now).2 with ⟨hh, hget⟩ | ⟨hh, hfresh, -⟩
  · rw [if_pos hh]
    exact hlog _ hget
  · rw [if_neg (by simp [hh]), hfresh]
    exact Mirrors.replicate _

theorem accept_several {r : FragReassembler} (hok : Ok r) (hb : Bounded r) {m : PacketMeta} (hm : m.Several) (now : Nat)
    {log : List (Nat × Bytes)}
    (hlog : ∀ p, r.partials.get m.key = some p → Mirrors p.frags log) :
    ∃ out r', r.accept m now = some (out, r') ∧ Ok r' ∧ Bounded r' ∧ r'.cap = r.cap ∧
      Accepted r m now ((if r.holds m then log else []) ++ [(m.frag_id.toNat, m.data)]) out r' := by
  have ht : 1 < m.frag_total.toNat := UInt8.lt_iff_toNat_lt.1 hm.1
  have hi : m.frag_id.toNat < m.frag_total.toNat := UInt8.lt_iff_toNat_lt.1 hm.2
  obtain ⟨hlen, hentry⟩ := r.entry_spec m now
  obtain ⟨gone, hev, hroom⟩ := exists_room hb m.key m.frag_total.toNat
  have hok₁ := (hok.drop_stale m.key m.frag_total.toNat).make_room m.key
  have hinc := hok₁.entry_incomplete m.key (n := m.frag_total.toNat) (by omega) now
  have hmirror := @entry_mirrors r m now log hlog
  generalize hp : ((r.drop_stale m.key m.frag_total.toNat).make_room m.key).entry m.key m.frag_total.toNat now = p
    at hlen hentry hinc hmirror
  obtain ⟨q, hq, hfrags, hcount⟩ := FragPartial.exists_store hinc (hlen.symm ▸ hi) m.data
  have hqlen : q.frags.length = m.frag_total.toNat := by rw [hfrags, List.length_set, hlen]
  have hseen := store_first_seen hq
  rw [← hfrags] at hmirror
  have hcomplete := hmirror.eq_map_some_iff
  rw [hqlen] at hcomplete
  generalize (if r.holds m then log else []) ++ [(m.frag_id.toNat, m.data)] = log' at hmirror hcomplete ⊢
  rw [accept, if_neg (by have := hm.1; have := hm.2; grind), if_neg (by have := hm.1; grind)]
  simp only [show (m.assoc_id, m.pkt_id) = m.key from rfl, hp, hq, Option.bind_eq_bind, Option.bind_some,
    Option.pure_def, Table.get_insert_self]
  generalize (r.drop_stale m.key m.frag_total.toNat).make_room m.key = r₁ at hev hroom hok₁ ⊢
  have hins := hroom.len_insert q
  split
  · rename_i hlt
    refine ⟨none, _, rfl, hok₁.insert _ ⟨hcount, hlt⟩, ⟨hroom.cap ▸ hb.1, hroom.cap ▸ hins⟩, hroom.cap, ⟨fun w => ⟨by simp, ?_⟩,
      by simp, fun _ => ⟨q, Table.get_insert_self .., hqlen, hmirror, ?_⟩, gone,
      hev.of_others fun key' hne => Table.get_insert_ne _ _ hne⟩⟩
    · rintro ⟨hall, -⟩
      rw [hcount, FragPartial.countP_isSome_lt_iff] at hlt
      exact absurd ((hcomplete _).2 ⟨hall, rfl⟩) (hlt _)
    · rcases hentry with ⟨hh, hget⟩ | ⟨hh, -, hnow⟩
      · rw [if_pos hh]
        exact ⟨p, hget, hseen⟩
      · rw [if_neg (by simp [hh]), hseen]
        exact hnow
  · rename_i hge
    rw [hcount, FragPartial.countP_isSome_lt_iff] at hge
    push Not at hge
    obtain ⟨parts, hparts⟩ := hge
    have hall := (hcomplete parts).1 hparts
    have hlen' := Table.len_of_get (Table.get_insert_self r₁.partials m.key q)
    refine ⟨_, _, rfl, hok₁.insert_remove _ q, ⟨hroom.cap ▸ hb.1, ?_⟩, hroom.cap, ⟨fun w => ?_, fun _ => Table.get_remove_self ..,
      by simp, gone, hev.of_others fun key' hne => ?_⟩⟩
    · show ((r₁.partials.insert m.key q).remove m.key).len ≤ r₁.cap
      rw [hroom.cap]
      omega
    · rw [hparts, FragPartial.reduceOption_map_some, Option.some.injEq, hall.2]
      exact ⟨fun h => ⟨hall.1, h.symm⟩, fun h => h.2.symm⟩
    · rw [Table.get_remove_ne _ hne, Table.get_insert_ne _ _ hne]

/-! ## Traces -/

inductive Op where
  | accept (m : PacketMeta) (now : Nat)
  | sweep (now ttl : Nat)

def next (r : FragReassembler) : Op → Option FragReassembler
  | .accept m now => (r.accept m now).map (·.2)
  | .sweep now ttl => some (r.sweep now ttl)

/-- What the call returns. -/
def output (r : FragReassembler) : Op → Option Bytes
  | .accept m now => (r.accept m now).bind (·.1)
  | .sweep _ _ => none

/-- A fragment is added to those of its packet, or starts anew when the packet
has no entry for its number of fragments. -/
def collect (key : UInt16 × UInt16) (log : List (Nat × Bytes)) (s : Taken FragReassembler Op) : List (Nat × Bytes) :=
  match s.ev with
  | .accept m _ =>
    if m.Several ∧ m.key = key then (if s.pre.holds m then log else []) ++ [(m.frag_id.toNat, m.data)] else log
  | .sweep _ _ => log

/-- The fragments accepted for `key` since its entry was created, oldest first. -/
def since (key : UInt16 × UInt16) (tr : List (Taken FragReassembler Op)) : List (Nat × Bytes) := tr.foldl (collect key) []

theorem since_snoc (key : UInt16 × UInt16) (tr : List (Taken FragReassembler Op)) (s : Taken FragReassembler Op) :
    since key (tr ++ [s]) = collect key (since key tr) s := by
  rw [since, List.foldl_append]
  rfl

theorem accept_invalid {m : PacketMeta} (h : m.frag_total = 0 ∨ m.frag_total ≤ m.frag_id) (r : FragReassembler) (now : Nat) :
    r.accept m now = some (none, r) := if_pos h

theorem accept_single {m : PacketMeta} (h : m.frag_total = 1) (hi : m.frag_id < m.frag_total) (r : FragReassembler)
    (now : Nat) : r.accept m now = some (some m.data, r) := by
  rw [accept, if_neg (by grind), if_pos h]

theorem accept_of_not_several {m : PacketMeta} (h : ¬m.Several) (r : FragReassembler) (now : Nat) :
    ∃ out, r.accept m now = some (out, r) := by
  by_cases hbad : m.frag_total = 0 ∨ m.frag_total ≤ m.frag_id
  · exact ⟨none, accept_invalid hbad r now⟩
  · exact ⟨some m.data, accept_single (by unfold PacketMeta.Several at h; grind) (by grind) r now⟩

theorem get_sweep (r : FragReassembler) (now ttl : Nat) (key : UInt16 × UInt16) (p : FragPartial) :
    (r.sweep now ttl).partials.get key = some p ↔ r.partials.get key = some p ∧ now - p.first_seen ≤ ttl := by
  rw [sweep, Table.get_retain, decide_eq_true_eq]

theorem sweep_bounded {r : FragReassembler} (h : Bounded r) (now ttl : Nat) : Bounded (r.sweep now ttl) := by
  refine ⟨h.1, Nat.le_trans ?_ h.2⟩
  have hperm : (r.sweep now ttl).partials.iter.Perm (r.partials.iter.filter fun x => decide (now - x.2.first_seen ≤ ttl)) :=
    Table.iter_perm_filter fun key p => by rw [get_sweep, decide_eq_true_eq]
  rw [Table.len, hperm.length_eq]
  exact List.length_filter_le _ _

/-- What the trace says about the table at its end. -/
structure Traced (cap : Nat) (tr : List (Taken FragReassembler Op)) (r : FragReassembler) : Prop where
  ok : Ok r
  bounded : Bounded r
  cap : r.cap = max cap 1
  mirrors : ∀ key p, r.partials.get key = some p → Mirrors p.frags (since key tr)

theorem run_traced {cap : Nat} {tr : List (Taken FragReassembler Op)} {r : FragReassembler}
    (h : Run (with_cap cap) next tr r) : Traced cap tr r := by
  induction h with
  | nil =>
    exact ⟨fun key p hp => by simp [with_cap] at hp, ⟨Nat.lt_of_lt_of_le Nat.one_pos (Nat.le_max_right cap 1), Nat.zero_le _⟩,
      rfl, fun key p hp => by simp [with_cap] at hp⟩
  | @snoc tr r r' op hr hn ih =>
    cases op with
    | sweep now ttl =>
      obtain rfl := Option.some.inj hn
      refine ⟨ih.ok.sweep now ttl, sweep_bounded ih.bounded now ttl, ih.cap, fun key p hp => ?_⟩
      rw [since_snoc]
      exact ih.mirrors key p ((get_sweep r now ttl key p).1 hp).1
    | accept m now =>
      obtain ⟨⟨out, r''⟩, hacc, rfl⟩ := Option.map_eq_some_iff.1 hn
      by_cases hm : m.Several
      · obtain ⟨out', r₁, hacc', hok, hb, hc, ha⟩ := accept_several ih.ok ih.bounded hm now (ih.mirrors m.key)
        obtain ⟨rfl, rfl⟩ := Prod.mk.inj (Option.some.inj (hacc.symm.trans hacc'))
        refine ⟨hok, hb, hc.trans ih.cap, fun key p hp => ?_⟩
        rw [since_snoc]
        by_cases hkey : m.key = key
        · subst hkey
          simp only [collect, hm, and_self, if_true]
          cases hout : out with
          | some w =>
            rw [ha.gone (by simp [hout])] at hp
            cases hp
          | none =>
            obtain ⟨p', hp', -, hmir, -⟩ := ha.entry hout
            obtain rfl := Option.some.inj (hp'.symm.trans hp)
            exact hmir
        · obtain ⟨gone, hev⟩ := ha.evicts
          simp only [collect, hkey, and_false, if_false]
          exact ih.mirrors key p ((hev.others key p (Ne.symm hkey)).1 hp).1
      · obtain ⟨out', hacc'⟩ := accept_of_not_several hm r now
        obtain ⟨rfl, rfl⟩ := Prod.mk.inj (Option.some.inj (hacc.symm.trans hacc'))
        refine ⟨ih.ok, ih.bounded, ih.cap, fun key p hp => ?_⟩
        rw [since_snoc]
        simp only [collect, hm, false_and, if_false]
        exact ih.mirrors key p hp

/-! ## The fragments of one packet -/

/-- In this step a fragment of the packet `parts` arrives for `key`, or another
call leaves the entry of `key` alone: it is not evicted and does not expire. -/
def fits (key : UInt16 × UInt16) (parts : List Bytes) (s : Taken FragReassembler Op) : Bool :=
  match s.ev with
  | .accept m _ =>
    if m.key = key then
      decide (m.Several ∧ m.frag_total.toNat = parts.length ∧ parts[m.frag_id.toNat]? = some m.data)
    else decide (s.post.partials.get key = s.pre.partials.get key)
  | .sweep _ _ => decide (s.post.partials.get key = s.pre.partials.get key)

/-- The id of a fragment of `key`. -/
def arrival (key : UInt16 × UInt16) (s : Taken FragReassembler Op) : Option Nat :=
  match s.ev with
  | .accept m _ => if m.key = key then some m.frag_id.toNat else none
  | .sweep _ _ => none

def arrived (key : UInt16 × UInt16) (tr : List (Taken FragReassembler Op)) : List Nat := tr.filterMap (arrival key)

/-- The packets returned for `key`. -/
def outputs (key : UInt16 × UInt16) (tr : List (Taken FragReassembler Op)) : List Bytes :=
  tr.filterMap fun s => (arrival key s).bind fun _ => s.pre.output s.ev

/-- The fragments collected for `key` are those of `parts` with the ids `seen`. -/
def Collected (key : UInt16 × UInt16) (parts : List Bytes) (seen : List Nat) (r : FragReassembler) : Prop :=
  ∃ log : List (Nat × Bytes), (∀ i d, (i, d) ∈ log → parts[i]? = some d) ∧ (∀ i, i ∈ seen ↔ ∃ d, (i, d) ∈ log) ∧
    ((r.partials.get key = none ∧ log = []) ∨
      ∃ p, r.partials.get key = some p ∧ p.frags.length = parts.length ∧ Mirrors p.frags log)

/-- One fragment: the set is complete and returned, or one more id is seen. -/
theorem accept_collected {r : FragReassembler} (hok : Ok r) (hb : Bounded r) {m : PacketMeta} (hm : m.Several)
    {parts : List Bytes} (hn : m.frag_total.toNat = parts.length) (hd : parts[m.frag_id.toNat]? = some m.data)
    {seen : List Nat} (hc : Collected m.key parts seen r) (now : Nat) :
    ∃ out r', r.accept m now = some (out, r') ∧
      if ∀ j < parts.length, j ∈ m.frag_id.toNat :: seen then out = some parts.flatten ∧ Collected m.key parts [] r'
      else out = none ∧ Collected m.key parts (m.frag_id.toNat :: seen) r' := by
  obtain ⟨log, hlog, hseen, hentry⟩ := hc
  have hmir : ∀ p, r.partials.get m.key = some p → Mirrors p.frags log := by
    rintro p hp
    rcases hentry with ⟨hnone, -⟩ | ⟨p', hp', -, hmir⟩
    · rw [hnone] at hp
      cases hp
    · obtain rfl := Option.some.inj (hp'.symm.trans hp)
      exact hmir
  have hstart : (if r.holds m then log else []) = log := by
    rcases hentry with ⟨-, rfl⟩ | ⟨p, hp, hlen, -⟩
    · exact ite_self _
    · rw [if_pos]
      simp [holds, hp, hlen, hn]
  obtain ⟨out, r', hacc, -, -, -, ha⟩ := accept_several hok hb hm now hmir
  rw [hstart] at ha
  refine ⟨out, r', hacc, ?_⟩
  have hlog' : ∀ i d, (i, d) ∈ log ++ [(m.frag_id.toNat, m.data)] → parts[i]? = some d := by
    intro i d h
    rcases List.mem_append.1 h with h | h
    · exact hlog i d h
    · obtain ⟨rfl, rfl⟩ := Prod.mk.inj (List.mem_singleton.1 h)
      exact hd
  have hseen' : ∀ i, i ∈ m.frag_id.toNat :: seen ↔ ∃ d, (i, d) ∈ log ++ [(m.frag_id.toNat, m.data)] := by
    intro i
    simp only [List.mem_cons, hseen, List.mem_append, Prod.mk.injEq, exists_or, exists_and_left,
      exists_eq, and_true, List.not_mem_nil, or_false]
    exact or_comm
  split
  · rename_i hall
    have hall' : ∀ i < parts.length, ∃ d, (i, d) ∈ log ++ [(m.frag_id.toNat, m.data)] :=
      fun i hi => (hseen' i).1 (hall i hi)
    have hout := (ha.complete parts.flatten).2 ⟨hn ▸ hall', by rw [hn, Mirrors.filterMap_latest_eq hlog' hall']⟩
    exact ⟨hout, [], by simp, by simp, .inl ⟨ha.gone (by simp [hout]), rfl⟩⟩
  · rename_i hmiss
    have hout : out = none := by
      by_contra hsome
      obtain ⟨w, hw⟩ := Option.ne_none_iff_exists'.1 hsome
      have hall := ((ha.complete w).1 hw).1
      rw [hn] at hall
      exact hmiss fun i hi => (hseen' i).2 (hall i hi)
    obtain ⟨p, hp, hlen, hmir', -⟩ := ha.entry hout
    exact ⟨hout, _, hlog', hseen', .inr ⟨p, hp, hlen.trans hn, hmir'⟩⟩

theorem arrived_snoc (key : UInt16 × UInt16) (tr : List (Taken FragReassembler Op)) (s : Taken FragReassembler Op) :
    arrived key (tr ++ [s]) = arrived key tr ++ (arrival key s).toList := by
  rw [arrived, List.filterMap_append, arrived]
  cases h : arrival key s <;> simp [h]

theorem outputs_snoc (key : UInt16 × UInt16) (tr : List (Taken FragReassembler Op)) (s : Taken FragReassembler Op) :
    outputs key (tr ++ [s]) = outputs key tr ++ ((arrival key s).bind fun _ => s.pre.output s.ev).toList := by
  rw [outputs, List.filterMap_append, outputs]
  cases h : (arrival key s).bind fun _ => s.pre.output s.ev <;> simp [h]

section Packet
variable {cap : Nat} {tr₀ tr : List (Taken FragReassembler Op)} {r₀ r : FragReassembler} {key : UInt16 × UInt16}
  {parts : List Bytes}

/-- Over a stretch of a run in which the fragments of one packet arrive, the
packet is returned once for each complete set of fragments. -/
theorem outputs_eq (h₀ : Run (with_cap cap) next tr₀ r₀) (hnone : r₀.partials.get key = none) (h : Run r₀ next tr r)
    (hfit : ∀ s ∈ tr, fits key parts s = true) :
    outputs key tr = List.replicate (rounds parts.length (arrived key tr)) parts.flatten := by
  suffices hs : outputs key tr = List.replicate (rounds parts.length (arrived key tr)) parts.flatten ∧
      Collected key parts ((arrived key tr).foldl (roundStep parts.length) ([], 0)).1 r from hs.1
  induction h with
  | nil => exact ⟨rfl, [], by simp, by simp [arrived], .inl ⟨hnone, rfl⟩⟩
  | @snoc tr r r' op hr hn ih =>
    have ht := run_traced (h₀.append hr)
    obtain ⟨hout, hc⟩ := ih fun s hs => hfit s (List.mem_append_left _ hs)
    have hfits := hfit _ (List.mem_append_right _ (List.mem_singleton_self _))
    -- A call that is not for `key` leaves its entry and adds nothing.
    have hother : arrival key ⟨r, op, r'⟩ = none → r'.partials.get key = r.partials.get key →
        outputs key (tr ++ [⟨r, op, r'⟩]) =
            List.replicate (rounds parts.length (arrived key (tr ++ [⟨r, op, r'⟩]))) parts.flatten ∧
          Collected key parts ((arrived key (tr ++ [⟨r, op, r'⟩])).foldl (roundStep parts.length) ([], 0)).1 r' := by
      intro harr hget
      rw [outputs_snoc, arrived_snoc, harr]
      simp only [Option.bind_none, Option.toList_none, List.append_nil]
      obtain ⟨log, hlog, hseen, hentry⟩ := hc
      exact ⟨hout, log, hlog, hseen, by rwa [hget]⟩
    cases op with
    | sweep now ttl => exact hother rfl (of_decide_eq_true hfits)
    | accept m now =>
      by_cases hkey : m.key = key
      · subst hkey
        simp only [fits, if_true, decide_eq_true_eq] at hfits
        obtain ⟨hm, hlen, hd⟩ := hfits
        obtain ⟨out, r₁, hacc, hcase⟩ := accept_collected ht.ok ht.bounded hm hlen hd hc now
        simp only [next, hacc, Option.map_some, Option.some.injEq] at hn
        subst hn
        rw [outputs_snoc, arrived_snoc, hout]
        simp only [arrival, if_true, Option.bind_some, output, hacc, Option.toList_some, rounds, List.foldl_append,
          List.foldl_cons, List.foldl_nil]
        generalize (arrived m.key tr).foldl (roundStep parts.length) ([], 0) = st at hcase ⊢
        unfold roundStep
        split at hcase
        · rename_i hall
          obtain ⟨rfl, hc'⟩ := hcase
          rw [if_pos hall]
          exact ⟨List.replicate_succ'.symm, hc'⟩
        · rename_i hmiss
          obtain ⟨rfl, hc'⟩ := hcase
          rw [if_neg hmiss]
          exact ⟨List.append_nil _, hc'⟩
      · simp only [fits, if_neg hkey, decide_eq_true_eq] at hfits
        exact hother (if_neg hkey) hfits

/-- A packet one of whose fragments arrives only once is returned exactly once
when all of them have arrived. -/
theorem outputs_once (h₀ : Run (with_cap cap) next tr₀ r₀) (hnone : r₀.partials.get key = none) (h : Run r₀ next tr r)
    (hfit : ∀ s ∈ tr, fits key parts s = true) (hall : ∀ i < parts.length, i ∈ arrived key tr)
    (honce : ∃ i < parts.length, (arrived key tr).count i = 1) : outputs key tr = [parts.flatten] := by
  obtain ⟨i, hi, hcount⟩ := honce
  have hle := rounds_le_count hi (arrived key tr)
  have hpos := rounds_pos (Nat.lt_of_le_of_lt (Nat.zero_le i) hi) hall
  rw [outputs_eq h₀ hnone h hfit, show rounds parts.length (arrived key tr) = 1 by omega]
  rfl

end Packet

/-- A held packet lacks a fragment. -/
theorem Traced.incomplete {cap : Nat} {tr : List (Taken FragReassembler Op)} {r : FragReassembler} (h : Traced cap tr r)
    {key : UInt16 × UInt16} {p : FragPartial} (hp : r.partials.get key = some p) :
    ∃ i < p.frags.length, ∀ d, (i, d) ∉ since key tr := by
  have hinc := h.ok key p hp
  have hmiss := hinc.missing
  rw [hinc.count, FragPartial.countP_isSome_lt_iff] at hmiss
  by_contra hall
  push Not at hall
  exact hmiss _ (((h.mirrors key p hp).eq_map_some_iff _).2 ⟨hall, rfl⟩)

/-- The trace specification of the reassembler. Its capacity is `cap`, but at least 1:
that is when `Accepted` evicts. -/
theorem reassembler_trace_spec {cap : Nat} {tr : List (Taken FragReassembler Op)} {r : FragReassembler}
    (h : Run (with_cap cap) next tr r) :
    r.cap = max cap 1 ∧ r.partials.len ≤ max cap 1 ∧
    (∀ key p, r.partials.get key = some p → ∃ i < p.frags.length, ∀ d, (i, d) ∉ since key tr) ∧
    (∀ m now, m.frag_total = 0 ∨ m.frag_total ≤ m.frag_id → r.accept m now = some (none, r)) ∧
    (∀ m now, m.frag_total = 1 → m.frag_id < m.frag_total → r.accept m now = some (some m.data, r)) ∧
    (∀ m now, m.Several → ∃ out r', r.accept m now = some (out, r') ∧
      Accepted r m now ((if r.holds m then since m.key tr else []) ++ [(m.frag_id.toNat, m.data)]) out r') ∧
    (∀ now ttl key p, (r.sweep now ttl).partials.get key = some p ↔
      r.partials.get key = some p ∧ now - p.first_seen ≤ ttl) ∧
    (∀ key parts tr' r', r.partials.get key = none → Run r next tr' r' → (∀ s ∈ tr', fits key parts s = true) →
      outputs key tr' = List.replicate (rounds parts.length (arrived key tr')) parts.flatten ∧
      ((∀ i < parts.length, i ∈ arrived key tr') → (∃ i < parts.length, (arrived key tr').count i = 1) →
        outputs key tr' = [parts.flatten])) := by
  have ht := run_traced h
  refine ⟨ht.cap, ht.cap ▸ ht.bounded.2, fun key p hp => ht.incomplete hp, fun m now hm => accept_invalid hm r now,
    fun m now hm hi => accept_single hm hi r now, fun m now hm => ?_, get_sweep r, fun key parts tr' r' hnone hr hfit => ?_⟩
  · obtain ⟨out, r', hacc, -, -, -, ha⟩ := accept_several ht.ok ht.bounded hm now (ht.mirrors m.key)
    exact ⟨out, r', hacc, ha⟩
  · exact ⟨outputs_eq h hnone hr hfit, outputs_once h hnone hr hfit⟩

/-- Two fragments out of order, the first one twice: one packet. -/
theorem reassembler_trace_spec_duplicate : ∃ tr r, Run (with_cap 256) next tr r ∧
    (∀ s ∈ tr, fits (7, 9) [[1], [2]] s = true) ∧ arrived (7, 9) tr = [1, 1, 0] ∧ outputs (7, 9) tr = [[1, 2]] := by
  have hrun : (traceEvents next (with_cap 256)
      [.accept ⟨7, 9, 2, 1, [2]⟩ 5, .accept ⟨7, 9, 2, 1, [2]⟩ 6, .sweep 7 10, .accept ⟨7, 9, 2, 0, [1]⟩ 8]).any
      (fun x => x.1.all (fits (7, 9) [[1], [2]]) && arrived (7, 9) x.1 == [1, 1, 0]) = true := by decide +kernel
  obtain ⟨tr, r, h, hp⟩ := exists_trace_of_any hrun
  simp only [Bool.and_eq_true, List.all_eq_true, beq_iff_eq] at hp
  refine ⟨tr, r, h, hp.1, hp.2, ?_⟩
  have hspec := (reassembler_trace_spec (.nil : Run (with_cap 256) next [] _)).2.2.2.2.2.2.2
  refine (hspec (7, 9) [[1], [2]] tr r (by decide +kernel) h hp.1).2 (by rw [hp.2]; decide) ⟨0, by decide, ?_⟩
  rw [hp.2]
  decide

/-- All fragments twice: a fragment that arrives after the packet was returned
starts it anew, and the packet is returned again. -/
theorem not_reassembled_once : ¬∀ (cap : Nat) (tr : List (Taken FragReassembler Op)) (r : FragReassembler)
    (key : UInt16 × UInt16) (parts : List Bytes), Run (with_cap cap) next tr r →
    (∀ s ∈ tr, fits key parts s = true) → (∀ i < parts.length, i ∈ arrived key tr) →
    outputs key tr = [parts.flatten] := by
  intro hclaim
  have hrun : (traceEvents next (with_cap 256)
      [.accept ⟨7, 9, 2, 0, [1]⟩ 5, .accept ⟨7, 9, 2, 1, [2]⟩ 5, .accept ⟨7, 9, 2, 0, [1]⟩ 5,
        .accept ⟨7, 9, 2, 1, [2]⟩ 5]).any
      (fun x => x.1.all (fits (7, 9) [[1], [2]]) && arrived (7, 9) x.1 == [0, 1, 0, 1] &&
        outputs (7, 9) x.1 == [[1, 2], [1, 2]]) = true := by decide +kernel
  obtain ⟨tr, r, h, hp⟩ := exists_trace_of_any hrun
  simp only [Bool.and_eq_true, List.all_eq_true, beq_iff_eq] at hp
  have := hclaim 256 tr r (7, 9) [[1], [2]] h hp.1.1 (by rw [hp.1.2]; decide)
  rw [hp.2] at this
  cases this

end FragReassembler
end MiniVpn
