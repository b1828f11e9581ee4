import Libjingle.PseudoTcp.Shift
import Libjingle.PseudoTcp.RecvMoves
import Libjingle.Fifo.Spec

/-!
# Where a wrapped comparison shows

A comparison of sequence numbers that has another outcome on the shifted numbers leaves a trace in the object, unless
nothing depends on it: a segment without new bytes is dropped on either side of `m_rcv_nxt`.

Main results: **`nagleStable_of_records`**, **`keeps_of_receive`**, **`storeStable_of_eq`**,
**`ackStable_of_process`**, **`process_shift_iff`**, **`process_wraps`**.
-/

variable {seg : Segment} {sflags : SendFlags}

namespace Libjingle

open Lib

namespace PseudoTcp

variable {s : PseudoTcp} {k : Uint32}

/-! ## Nagle's test -/

def records (s : PseudoTcp) : ℕ := s.log.length + s.faults.length

theorem records_shift (s : PseudoTcp) : (s.shift k).records = s.records := by
  unfold records shift
  rw [List.length_map]

theorem records_check (s : PseudoTcp) (fault : Fault) (c : Bool) : s.records ≤ (s.check fault c).records := by
  rw [check_eq]
  unfold records
  dsimp only
  rw [List.length_append]
  omega

theorem records_packet (s : PseudoTcp) (seq : Uint32) (flags : Uint8) (offset len : Uint32) :
    s.records < (s.packet seq flags offset len).1.records := by
  rw [packet_eq]
  dsimp only
  split_ifs <;>
  · unfold records
    dsimp only
    rw [List.length_append, List.length_append, List.length_singleton]
    omega

theorem records_transmitPacket (s : PseudoTcp) (seg : SSegment) (n : Uint32) :
    s.records < (s.transmitPacket seg n).1.records := by
  have hfirst := records_packet s seg.seq seg.flags (seg.seq - s.snd.sndUna) n
  unfold transmitPacket
  split
  · next t heq =>
    rw [heq] at hfirst
    exact hfirst
  · next t heq =>
    rw [heq] at hfirst
    exact hfirst
  · next t heq =>
    rw [heq] at hfirst
    refine hfirst.trans_le ?_
    exact (retryPacket_rel (R := fun s s' => s.records ≤ s'.records) (fun _ => le_rfl) le_trans seg
      (fun _ _ _ _ => le_rfl) n (fun t _ _ _ => (records_packet t _ _ _ _).le) _ (List.drop_subset _ _) n t
      (BitVec.le_refl n)).1

theorem records_transmit (s : PseudoTcp) (before : List SSegment) {seg : SSegment} (hx : seg.xmit = 0)
    (after : List SSegment) (now : Uint32) : s.records < (s.transmit before seg after now).1.records := by
  have hpacket := records_transmitPacket s seg (min32 seg.len s.mss)
  rcases transmit_cases s before seg after now with ⟨-, hmax⟩ | ⟨t, ht, hsent⟩ | ⟨t, n, ht, -, hsent⟩
  · rw [hx] at hmax
    exact absurd hmax (by decide)
  · rw [hsent]
    rw [ht] at hpacket
    exact hpacket
  · rw [hsent]
    rw [ht] at hpacket
    exact hpacket

theorem records_sendSegment {before after : List SSegment} {seg : SSegment}
    (h : nextSegment s.snd.slist = (before, seg :: after)) (n now : Uint32) :
    s.records < (s.sendSegment before seg after n now).1.records := by
  have hx : seg.xmit = 0 := Emits.nextSegment_seg h
  have hsame (slist : List SSegment) : s.records = ({ s with snd.slist := slist } : PseudoTcp).records := rfl
  unfold sendSegment
  by_cases hlen : seg.len > n
  · have hcut : ({ seg with len := n } : SSegment).xmit = 0 := hx
    simp only [if_pos hlen]
    rw [hsame]
    exact records_transmit _ before hcut _ now
  · simp only [if_neg hlen]
    rw [hsame]
    exact records_transmit _ before hx _ now

def sendOn (fuel : ℕ) (s : PseudoTcp) (now : Uint32) : PseudoTcp :=
  match nextSegment s.snd.slist with
  | (_, []) => s.check .searchEnd false
  | (before, seg :: after) =>
    match s.sendSegment before seg after s.nAvailable now with
    | (s, true) => sendLoop fuel s .none now
    | (s, false) => s

theorem records_sendLoop (fuel : ℕ) (s : PseudoTcp) (sflags : SendFlags) (now : Uint32) :
    s.records ≤ (sendLoop fuel s sflags now).records := by
  refine sendLoop_rel (R := fun s s' => s.records ≤ s'.records) (fun _ => le_rfl) le_trans
    (fun t => records_check t _ _) (fun t _ _ => records_check t _ _) (fun t sflags => ?_) now
    (fun t before seg after _ h => (records_sendSegment h _ now).le) fuel s sflags
  cases sflags with
  | none => exact le_rfl
  | immediateAck => exact (records_packet t _ _ _ _).le
  | delayedAck =>
    unfold sendAck
    dsimp only
    split_ifs
    · exact (records_packet t _ _ _ _).le
    · exact le_rfl

theorem records_sendOn (fuel : ℕ) (s : PseudoTcp) (now : Uint32) : s.records < (sendOn fuel s now).records := by
  unfold sendOn
  split
  · rw [check_eq]
    unfold records
    simp
  · next before seg after heq =>
    have hsent := records_sendSegment heq s.nAvailable now
    split
    · next t heq =>
      rw [heq] at hsent
      exact hsent.trans_le (records_sendLoop fuel t .none now)
    · next t heq =>
      rw [heq] at hsent
      exact hsent

theorem nagleStable_sendOn {fuel : ℕ} {now : Uint32}
    (hloop : ∀ before seg after t, nextSegment s.snd.slist = (before, seg :: after) →
      s.sendSegment before seg after s.nAvailable now = (t, true) →
        ((sendLoop fuel (t.shift k) .none now).records = (sendLoop fuel t .none now).records → NagleStable k fuel t now))
    (h : (sendOn fuel (s.shift k) now).records = (sendOn fuel s now).records) :
    match nextSegment s.snd.slist with
    | (_, []) => True
    | (before, seg :: after) =>
      match s.sendSegment before seg after s.nAvailable now with
      | (s, true) => NagleStable k fuel s now
      | (_, false) => True := by
  have hlist : (s.shift k).snd.slist = s.snd.slist.map (.shift k) := rfl
  unfold sendOn at h
  rw [hlist, nextSegment_shift, nAvailable_shift] at h
  cases hnext : nextSegment s.snd.slist with
  | mk before rest =>
    cases rest with
    | nil => trivial
    | cons seg after =>
      rw [hnext] at h
      simp only [List.map_cons, sendSegment_shift] at h ⊢
      cases hsent : s.sendSegment before seg after s.nAvailable now with
      | mk t ok =>
        cases ok with
        | false => trivial
        | true =>
          rw [hsent] at h
          exact hloop before seg after t hnext hsent h

/-- **Nagle's test shows**: who is held back records less than who sends. -/
theorem nagleStable_of_records (fuel : ℕ) (s : PseudoTcp) (sflags : SendFlags) (now : Uint32)
    (h : (sendLoop fuel (s.shift k) sflags now).records = (sendLoop fuel s sflags now).records) :
    NagleStable k fuel s now := by
  induction fuel generalizing s sflags with
  | zero => trivial
  | succ fuel ih =>
    have hsucc (t : PseudoTcp) : sendLoop (fuel + 1) t sflags now =
        let t := t.check .inFlight (t.nInFlight ≤ u32 t.snd.sbuf.getBuffered)
        if t.nAvailable = 0 then t.sendAck sflags else if t.nagleHolds then t else sendOn fuel t now := rfl
    rw [hsucc, hsucc, shift_nInFlight] at h
    have hcheck : (s.shift k).check .inFlight (s.nInFlight ≤ u32 (s.shift k).snd.sbuf.getBuffered) =
        (s.check .inFlight (s.nInFlight ≤ u32 s.snd.sbuf.getBuffered)).shift k := shift_check s .inFlight _
    simp only [hcheck, NagleStable] at h ⊢
    generalize s.check .inFlight (s.nInFlight ≤ u32 s.snd.sbuf.getBuffered) = t at h ⊢
    rw [nAvailable_shift] at h
    by_cases h0 : t.nAvailable = 0
    · exact .inl h0
    rw [if_neg h0, if_neg h0] at h
    have hon := records_sendOn fuel t now
    have hon' := records_sendOn fuel (t.shift k) now
    rw [records_shift] at hon'
    have hsame : (t.shift k).nagleHolds = t.nagleHolds := by
      cases hheld : t.nagleHolds <;> cases hheld' : (t.shift k).nagleHolds <;> rw [hheld, hheld'] at h
      case false.true =>
        rw [if_pos rfl, if_neg (by decide), records_shift] at h
        omega
      case true.false =>
        rw [if_neg (by decide), if_pos rfl] at h
        omega
    refine .inr ⟨fun hnagling hsmall => ?_, ?_⟩
    · have hmss : (t.shift k).mss = t.mss := rfl
      have hnag : (t.shift k).useNagling = t.useNagling := rfl
      unfold nagleHolds at hsame
      rw [nAvailable_shift, hmss, hnag, hnagling, decide_eq_true hsmall, Bool.true_and, Bool.true_and, Bool.and_true,
        Bool.and_true] at hsame
      exact decide_eq_decide.mp hsame
    · by_cases hheld : t.nagleHolds = true
      · exact .inl hheld
      · rw [hsame, if_neg hheld, if_neg hheld] at h
        exact .inr (nagleStable_sendOn (fun _ _ _ u _ _ hu => ih u .none hu) h)

theorem sendStable_of_records (sflags : SendFlags)
    (h : ((s.shift k).attemptSend sflags).records = (s.attemptSend sflags).records) : SendStable k s := by
  have hlist : (s.shift k).snd.slist = s.snd.slist.map (.shift k) := rfl
  unfold attemptSend at h
  rw [hlist, sendFuel_shift, beforeLoop_shift] at h
  exact nagleStable_of_records _ _ sflags _ h

/-! ## Reassembly -/

def recovered : List RSegment → Uint32 → List RSegment × Uint32
  | [], nxt => ([], nxt)
  | r :: rest, nxt => if r.seq ≤ nxt then recovered rest (if r.fin > nxt then r.fin else nxt) else (r :: rest, nxt)

theorem recoverLoop_eq (l : List RSegment) (s : PseudoTcp) (acked : Bool) :
    (recoverLoop l s acked).1.rcv.rlist = (recovered l s.rcv.rcvNxt).1 ∧
      (recoverLoop l s acked).1.rcv.rcvNxt = (recovered l s.rcv.rcvNxt).2 := by
  induction l generalizing s acked with
  | nil => exact ⟨rfl, rfl⟩
  | cons r l ih =>
    rw [recoverLoop, recovered]
    split_ifs with hseq hfin
    · have hnxt : (s.consume (r.fin - s.rcv.rcvNxt)).rcv.rcvNxt = r.fin := by
        simp only [consume, check_eq]
        bv_omega
      have hrest := ih (s.consume (r.fin - s.rcv.rcvNxt)) true
      rw [hnxt] at hrest
      exact hrest
    · exact ih s acked
    · exact ⟨rfl, rfl⟩

theorem length_recovered (l : List RSegment) (nxt : Uint32) : (recovered l nxt).1.length ≤ l.length := by
  induction l generalizing nxt with
  | nil => exact le_rfl
  | cons r l ih =>
    rw [recovered]
    split_ifs
    · exact (ih _).trans (Nat.le_succ _)
    · exact (ih _).trans (Nat.le_succ _)
    · exact le_rfl

theorem le_recovered (l : List RSegment) (nxt : Uint32) : nxt ≤ (recovered l nxt).2 := by
  induction l generalizing nxt with
  | nil => exact BitVec.le_refl nxt
  | cons r l ih =>
    rw [recovered]
    split_ifs with hseq hfin
    · have hle := ih r.fin
      bv_omega
    · exact ih nxt
    · exact BitVec.le_refl nxt

/-- **The comparisons of the loop over `m_rlist` show** in what is left of the list, and in
`m_rcv_nxt`. -/
theorem recoverStable_of_eq (l : List RSegment) (nxt : Uint32)
    (hlist : (recovered (l.map (.shift k)) (nxt + k)).1.length = (recovered l nxt).1.length)
    (hnxt : (recovered (l.map (.shift k)) (nxt + k)).2 = (recovered l nxt).2 + k) : RecoverStable k l nxt := by
  induction l generalizing nxt with
  | nil => trivial
  | cons r l ih =>
    have hfin : (r.shift k).fin = r.fin + k := add_shift _ _ k
    have hseq : (r.shift k).seq = r.seq + k := rfl
    rw [List.map_cons, recovered, recovered, hfin, hseq] at hlist hnxt
    have hstart : r.seq + k ≤ nxt + k ↔ r.seq ≤ nxt := by
      by_cases h : r.seq ≤ nxt <;> by_cases h' : r.seq + k ≤ nxt + k
      · exact iff_of_true h' h
      · have hle := length_recovered l (if r.fin > nxt then r.fin else nxt)
        rw [if_neg h', if_pos h, List.length_cons, List.length_map] at hlist
        omega
      · have hle := length_recovered (l.map (.shift k)) (if r.fin + k > nxt + k then r.fin + k else nxt + k)
        rw [if_pos h', if_neg h, List.length_cons] at hlist
        rw [List.length_map] at hle
        omega
      · exact iff_of_false h' h
    have hkeep : Keeps k nxt r.seq := by
      unfold Keeps
      rw [← BitVec.not_le, ← BitVec.not_le]
      exact not_congr hstart
    refine ⟨hkeep, fun hle => ?_⟩
    rw [if_pos hle, if_pos (hstart.mpr hle)] at hlist hnxt
    have hend : Keeps k nxt r.fin := by
      by_cases h : r.fin > nxt <;> by_cases h' : r.fin + k > nxt + k
      · exact iff_of_true h' h
      · rw [if_neg h', if_pos h] at hnxt
        have hle := le_recovered l r.fin
        have hle' := le_recovered (l.map (.shift k)) (nxt + k)
        rw [hnxt] at hle'
        bv_omega
      · rw [if_pos h', if_neg h] at hnxt
        have hle := le_recovered l nxt
        have hle' := le_recovered (l.map (.shift k)) (r.fin + k)
        rw [hnxt] at hle'
        bv_omega
      · exact iff_of_false h' h
    refine ⟨hend, ?_⟩
    by_cases hgt : r.fin > nxt
    · rw [if_pos hgt, if_pos (hend.mpr hgt)] at hlist hnxt
      rw [if_pos hgt]
      exact ih r.fin hlist hnxt
    · rw [if_neg hgt, if_neg (mt hend.mp hgt)] at hlist hnxt
      rw [if_neg hgt]
      exact ih nxt hlist hnxt

/-- **The comparisons that find the place of a new entry show** in the order of the list. -/
theorem insertStable_of_eq (r : RSegment) (l : List RSegment)
    (h : insertRlist (r.shift k) (l.map (.shift k)) = (insertRlist r l).map (.shift k)) : InsertStable k r.seq l := by
  induction l with
  | nil => trivial
  | cons x l ih =>
    have hseq (x : RSegment) : (x.shift k).seq = x.seq + k := rfl
    have hshift (h : r.shift k = x.shift k) : r.seq = x.seq := shift_inj.mp (congrArg RSegment.seq h)
    rw [List.map_cons, insertRlist, insertRlist, hseq, hseq] at h
    by_cases hlt : x.seq < r.seq <;> by_cases hlt' : x.seq + k < r.seq + k
    · rw [if_pos hlt', if_pos hlt, List.map_cons] at h
      exact ⟨iff_of_true hlt' hlt, fun _ => ih (List.cons.inj h).2⟩
    · rw [if_neg hlt', if_pos hlt, List.map_cons] at h
      have heq := hshift (List.cons.inj h).1
      rw [heq] at hlt
      exact absurd hlt (BitVec.lt_irrefl _)
    · rw [if_pos hlt', if_neg hlt, List.map_cons] at h
      have heq := hshift (List.cons.inj h).1.symm
      rw [heq] at hlt'
      exact absurd hlt' (BitVec.lt_irrefl _)
    · exact ⟨iff_of_false hlt' hlt, fun hx => absurd hx hlt⟩

def stored (l : List RSegment) (nxt : Uint32) (g : Segment) : List RSegment × Uint32 :=
  if g.seq = nxt then recovered l (nxt + g.len) else (insertRlist ⟨g.seq, g.len⟩ l, nxt)

theorem store_eq (s : PseudoTcp) (g : Segment) (sflags : SendFlags) :
    (s.store g sflags).1.rcv.rlist = (stored s.rcv.rlist s.rcv.rcvNxt g).1 ∧
      (s.store g sflags).1.rcv.rcvNxt = (stored s.rcv.rlist s.rcv.rcvNxt g).2 := by
  have hpart : (s.writePayload g).rcv.rcvNxt = s.rcv.rcvNxt ∧ (s.writePayload g).rcv.rlist = s.rcv.rlist := by
    simp only [writePayload, check_eq, and_self]
  unfold store stored
  rw [← hpart.1, ← hpart.2]
  generalize s.writePayload g = t
  by_cases hseq : g.seq = t.rcv.rcvNxt
  · simp only [if_pos hseq]
    have hloop := recoverLoop_eq (t.consume g.len).rcv.rlist (t.consume g.len) false
    have hconsume : (t.consume g.len).rcv.rcvNxt = t.rcv.rcvNxt + g.len ∧
        (t.consume g.len).rcv.rlist = t.rcv.rlist := by
      simp only [consume, check_eq, and_self]
    rw [hconsume.1, hconsume.2] at hloop
    rw [hconsume.2]
    exact hloop
  · simp only [if_neg hseq, and_self]

theorem receive_store {g : Segment} (h0 : g.len ≠ 0) (hopen : s.ignoresData g = false) (sflags : SendFlags) :
    s.receive g sflags = s.store g sflags := by
  unfold receive
  rw [if_neg h0, hopen, if_neg (by decide)]

/-- **The comparisons of what is stored show** in `m_rlist` and `m_rcv_nxt`. -/
theorem storeStable_of_eq {g : Segment} (sflags : SendFlags)
    (h : ((s.shift k).receive (g.shift k) sflags).1.rcv = ((s.receive g sflags).1.shift k).rcv) :
    StoreStable k s g := by
  intro h0 hopen
  have h0' : (g.shift k).len ≠ 0 := h0
  have hopen' : (s.shift k).ignoresData (g.shift k) = false := hopen
  rw [receive_store h0 hopen, receive_store h0' hopen'] at h
  obtain ⟨hlist, hnxt⟩ := store_eq s g sflags
  obtain ⟨hlist', hnxt'⟩ := store_eq (s.shift k) (g.shift k) sflags
  rw [h] at hlist' hnxt'
  have hlist : _ = (stored s.rcv.rlist s.rcv.rcvNxt g).1.map (RSegment.shift k) :=
    congrArg (List.map (RSegment.shift k)) hlist
  have hnxt : _ = (stored s.rcv.rlist s.rcv.rcvNxt g).2 + k := congrArg (· + k) hnxt
  replace hlist := hlist'.symm.trans hlist
  replace hnxt := hnxt'.symm.trans hnxt
  unfold stored at hlist hnxt
  have hseq : ((g.shift k).seq = (s.shift k).rcv.rcvNxt) = (g.seq = s.rcv.rcvNxt) := propext shift_inj
  simp only [hseq] at hlist hnxt
  split_ifs at hlist hnxt ⊢ with hs
  · have hadd : (s.shift k).rcv.rcvNxt + (g.shift k).len = s.rcv.rcvNxt + g.len + k := add_shift _ _ k
    rw [hadd] at hlist hnxt
    exact recoverStable_of_eq _ _ ((congrArg List.length hlist).trans (List.length_map _)) hnxt
  · exact insertStable_of_eq ⟨g.seq, g.len⟩ s.rcv.rlist hlist

/-! ## Trimming -/

def TrimShows (s : PseudoTcp) (seg : Segment) (room : Uint32) : Prop :=
  s.rcv.rcvNxt - seg.seq < seg.len ∧ room ≠ 0 ∨ s.ignoresData seg = false ∧ (s.trimRight seg).len ≠ 0

instance (s : PseudoTcp) (seg : Segment) (room : Uint32) : Decidable (s.TrimShows seg room) :=
  inferInstanceAs (Decidable (_ ∨ _))

theorem trim_before (h : seg.seq < s.rcv.rcvNxt) :
    (s.rcv.rcvNxt - seg.seq < seg.len ∧ u32 s.rcv.rbuf.getWriteRemaining ≠ 0 →
        (s.trim seg).len ≠ 0 ∧ (s.trim seg).seq = s.rcv.rcvNxt) ∧
      (¬(s.rcv.rcvNxt - seg.seq < seg.len ∧ u32 s.rcv.rbuf.getWriteRemaining ≠ 0) → (s.trim seg).len = 0) := by
  unfold trim trimRight trimLeft
  simp only [if_pos h]
  generalize u32 s.rcv.rbuf.getWriteRemaining = room
  generalize s.rcv.rcvNxt = nxt at h ⊢
  constructor
  · rintro ⟨hlt, hroom⟩
    simp only [if_pos hlt]
    split_ifs <;> dsimp only <;> constructor <;> bv_omega
  · intro hnot
    by_cases hlt : nxt - seg.seq < seg.len
    · have hroom : room = 0 := by
        by_contra hroom
        exact hnot ⟨hlt, hroom⟩
      simp only [if_pos hlt, hroom]
      split_ifs <;> dsimp only <;> bv_omega
    · simp only [if_neg hlt]
      split_ifs <;> first | rfl | (dsimp only at *; bv_omega)

theorem trim_after (h : ¬seg.seq < s.rcv.rcvNxt) : s.trim seg = s.trimRight seg ∧ (s.trim seg).seq = seg.seq := by
  have hleft : s.trimLeft seg = seg := if_neg h
  rw [trim, hleft]
  refine ⟨rfl, ?_⟩
  unfold trimRight
  dsimp only
  split_ifs <;> rfl

theorem ignoresData_trim (s : PseudoTcp) (seg : Segment) : s.ignoresData (s.trim seg) = s.ignoresData seg := by
  unfold ignoresData
  rw [trim_flags]

def room (s : PseudoTcp) : Uint32 := u32 s.rcv.rbuf.getWriteRemaining

theorem trimShows_shift : (s.shift k).TrimShows (seg.shift k) s.room ↔ s.TrimShows seg s.room := by
  have hadj : (s.shift k).rcv.rcvNxt - (seg.shift k).seq = s.rcv.rcvNxt - seg.seq := sub_shift _ _ k
  unfold TrimShows
  rw [hadj, trimRight_shift]
  rfl

theorem trim_hidden (hne : seg.seq ≠ s.rcv.rcvNxt) (hhidden : ¬s.TrimShows seg s.room) :
    (s.trim seg).len = 0 ∨ s.ignoresData seg = true ∧ (s.trim seg).seq ≠ s.rcv.rcvNxt := by
  obtain ⟨hread, hstored⟩ := not_or.mp hhidden
  by_cases h : seg.seq < s.rcv.rcvNxt
  · exact .inl ((trim_before h).2 hread)
  · obtain ⟨htrim, hseq⟩ := trim_after h
    by_cases h0 : (s.trim seg).len = 0
    · exact .inl h0
    · refine .inr ⟨?_, hseq.symm ▸ hne⟩
      rw [htrim] at h0
      exact Bool.not_eq_false _ ▸ fun hopen => hstored ⟨hopen, h0⟩

theorem receive_hidden (hne : seg.seq ≠ s.rcv.rcvNxt) (hhidden : ¬s.TrimShows seg s.room)
    (sflags : SendFlags) : s.receive (s.trim seg) sflags = (s, sflags, false) := by
  unfold receive
  rcases trim_hidden hne hhidden with h0 | ⟨hign, hseq⟩
  · rw [if_pos h0]
  · rw [ignoresData_trim, hign, if_pos rfl, if_neg hseq, ite_self]

theorem dataLength_writePayload (s : PseudoTcp) (g : Segment) :
    (s.writePayload g).rcv.rbuf.dataLength = s.rcv.rbuf.dataLength := by
  simp only [writePayload, check_eq, FifoBuffer.writeOffset, FifoBuffer.writeOffsetLocked]
  split_ifs <;> rfl

theorem dataLength_consume (s : PseudoTcp) (n : Uint32) :
    (s.consume n).rcv.rbuf.dataLength = s.rcv.rbuf.dataLength + n.toNat := by
  simp only [consume, check_eq, FifoBuffer.consumeWriteBuffer_dataLength]

theorem dataLength_recoverLoop (l : List RSegment) (s : PseudoTcp) (acked : Bool) :
    s.rcv.rbuf.dataLength ≤ (recoverLoop l s acked).1.rcv.rbuf.dataLength := by
  induction l generalizing s acked with
  | nil => exact le_rfl
  | cons r l ih =>
    rw [recoverLoop]
    split_ifs
    · have hle := ih (s.consume (r.fin - s.rcv.rcvNxt)) true
      rw [dataLength_consume] at hle
      omega
    · exact ih s acked
    · exact le_rfl

theorem length_insertRlist (r : RSegment) (l : List RSegment) : (insertRlist r l).length = l.length + 1 := by
  induction l with
  | nil => rfl
  | cons x l ih =>
    rw [insertRlist]
    split_ifs
    · rw [List.length_cons, ih, List.length_cons]
    · rfl

theorem dataLength_store (s : PseudoTcp) {g : Segment} (h0 : g.len ≠ 0) (sflags : SendFlags) :
    (g.seq = s.rcv.rcvNxt → s.rcv.rbuf.dataLength < (s.store g sflags).1.rcv.rbuf.dataLength) ∧
      (g.seq ≠ s.rcv.rcvNxt → (s.store g sflags).1.rcv.rbuf.dataLength = s.rcv.rbuf.dataLength) := by
  have hnxt : (s.writePayload g).rcv.rcvNxt = s.rcv.rcvNxt := by
    simp only [writePayload, check_eq]
  have hlen : g.len.toNat ≠ 0 := fun h => h0 (by bv_omega)
  have hwritten := dataLength_writePayload s g
  unfold store
  rw [← hnxt, ← hwritten]
  generalize s.writePayload g = t
  constructor
  · intro hseq
    simp only [if_pos hseq]
    have hle := dataLength_recoverLoop (t.consume g.len).rcv.rlist (t.consume g.len) false
    rw [dataLength_consume] at hle
    omega
  · intro hseq
    simp only [if_neg hseq]

theorem receive_before (h : seg.seq < s.rcv.rcvNxt)
    (hrest : s.rcv.rcvNxt - seg.seq < seg.len ∧ s.room ≠ 0) (sflags : SendFlags) :
    (s.receive (s.trim seg) sflags).1.rcv.rcvNxt ≠ s.rcv.rcvNxt ∨
      s.rcv.rbuf.dataLength < (s.receive (s.trim seg) sflags).1.rcv.rbuf.dataLength := by
  obtain ⟨h0, hseq⟩ := (trim_before h).1 hrest
  cases hign : s.ignoresData (s.trim seg) with
  | true =>
    left
    unfold receive
    rw [if_neg h0, hign, if_pos rfl, if_pos hseq]
    dsimp only
    bv_omega
  | false =>
    rw [receive_store h0 hign]
    exact .inr ((dataLength_store s h0 sflags).1 hseq)

theorem receive_after (h : ¬seg.seq < s.rcv.rcvNxt) (hne : seg.seq ≠ s.rcv.rcvNxt) (sflags : SendFlags) :
    (s.receive (s.trim seg) sflags).1.rcv.rcvNxt = s.rcv.rcvNxt ∧
      (s.receive (s.trim seg) sflags).1.rcv.rbuf.dataLength = s.rcv.rbuf.dataLength ∧
      (s.ignoresData seg = false ∧ (s.trimRight seg).len ≠ 0 →
        (s.receive (s.trim seg) sflags).1.rcv.rlist.length = s.rcv.rlist.length + 1) := by
  obtain ⟨htrim, hseq⟩ := trim_after h
  have hne : (s.trim seg).seq ≠ s.rcv.rcvNxt := hseq.symm ▸ hne
  rw [← htrim, ← ignoresData_trim]
  generalize s.trim seg = g at hne ⊢
  by_cases h0 : g.len = 0
  · have heq : s.receive g sflags = (s, sflags, false) := if_pos h0
    rw [heq]
    exact ⟨rfl, rfl, fun hstored => absurd h0 hstored.2⟩
  cases hign : s.ignoresData g with
  | true =>
    have heq : s.receive g sflags = (s, sflags, false) := by
      unfold receive
      rw [if_neg h0, hign, if_pos rfl, if_neg hne]
    rw [heq]
    exact ⟨rfl, rfl, fun hstored => absurd hstored.1 (by decide)⟩
  | false =>
    rw [receive_store h0 hign]
    obtain ⟨hlist, hnxt⟩ := store_eq s g sflags
    unfold stored at hlist hnxt
    rw [if_neg hne] at hlist hnxt
    refine ⟨hnxt, (dataLength_store s h0 sflags).2 hne, fun _ => ?_⟩
    rw [hlist, length_insertRlist]

theorem Keeps.of_eq {a b : Uint32} (h : a = b) : Keeps k a b := by
  rw [h]
  exact iff_of_false (BitVec.lt_irrefl _) (BitVec.lt_irrefl _)

/-- How far reading has come. -/
structure SameProgress (s t s' t' : PseudoTcp) : Prop where
  rcvNxt : t.rcv.rcvNxt = s.rcv.rcvNxt ↔ t'.rcv.rcvNxt = s'.rcv.rcvNxt
  dataLength : t.rcv.rbuf.dataLength = s.rcv.rbuf.dataLength ↔ t'.rcv.rbuf.dataLength = s'.rcv.rbuf.dataLength
  rlist : t.rcv.rlist.length = s.rcv.rlist.length ↔ t'.rcv.rlist.length = s'.rcv.rlist.length

theorem progress_differs {s s' : PseudoTcp} {seg' : Segment} {sflags' : SendFlags}
    (h : seg.seq < s.rcv.rcvNxt) (h' : ¬seg'.seq < s'.rcv.rcvNxt) (hne : seg'.seq ≠ s'.rcv.rcvNxt)
    (hshows : s.rcv.rcvNxt - seg.seq < seg.len ∧ s.room ≠ 0 ∨
      s'.ignoresData seg' = false ∧ (s'.trimRight seg').len ≠ 0) :
    ¬SameProgress s (s.receive (s.trim seg) sflags).1 s' (s'.receive (s'.trim seg') sflags').1 := by
  intro hsame
  obtain ⟨hnxt, hdata, hlist⟩ := receive_after h' hne sflags'
  have hread : ¬(s.rcv.rcvNxt - seg.seq < seg.len ∧ s.room ≠ 0) := by
    intro hrest
    rcases receive_before h hrest sflags with hread | hread
    · exact hread (hsame.rcvNxt.mpr hnxt)
    · exact hread.ne' (hsame.dataLength.mpr hdata)
  have hnothing : s.receive (s.trim seg) sflags = (s, sflags, false) := if_pos ((trim_before h).2 hread)
  have hkept := hsame.rlist.mp (by rw [hnothing])
  rw [hlist (hshows.resolve_left hread)] at hkept
  omega

/-- **The test for old bytes shows**, where it can. -/
theorem keeps_of_receive {sflags' : SendFlags} (hshows : s.TrimShows seg s.room)
    (h : ((s.shift k).receive ((s.shift k).trim (seg.shift k)) sflags').1.rcv =
      ((s.receive (s.trim seg) sflags).1.shift k).rcv) : Keeps k seg.seq s.rcv.rcvNxt := by
  have hsame : SameProgress s (s.receive (s.trim seg) sflags).1 (s.shift k)
      ((s.shift k).receive ((s.shift k).trim (seg.shift k)) sflags').1 := by
    refine ⟨?_, ?_, ?_⟩ <;> rw [h]
    · exact shift_inj.symm
    · exact Iff.rfl
    · unfold shift
      rw [List.length_map, List.length_map]
  have hadj : (s.shift k).rcv.rcvNxt - (seg.shift k).seq = s.rcv.rcvNxt - seg.seq := sub_shift _ _ k
  have hright : ((s.shift k).trimRight (seg.shift k)).len = (s.trimRight seg).len := by
    rw [trimRight_shift]
    rfl
  by_cases heq : seg.seq = s.rcv.rcvNxt
  · exact .of_eq heq
  have heq' : (seg.shift k).seq ≠ (s.shift k).rcv.rcvNxt := fun h => heq (shift_inj.mp h)
  by_cases hlt : seg.seq < s.rcv.rcvNxt <;> by_cases hlt' : (seg.shift k).seq < (s.shift k).rcv.rcvNxt
  · exact iff_of_true hlt' hlt
  · refine absurd hsame (progress_differs hlt hlt' heq' (hshows.imp_right fun hstored => ?_))
    exact ⟨hstored.1, hright ▸ hstored.2⟩
  · refine absurd ⟨hsame.rcvNxt.symm, hsame.dataLength.symm, hsame.rlist.symm⟩
      (progress_differs hlt' hlt heq (hshows.imp_left fun hread => ?_))
    exact ⟨hadj ▸ hread.1, hread.2⟩
  · exact iff_of_false hlt' hlt

theorem receive_trim_shift (htrim : s.TrimShows seg s.room → Keeps k seg.seq s.rcv.rcvNxt)
    (hstore : StoreStable k s (s.trim seg)) (sflags : SendFlags) :
    (s.shift k).receive ((s.shift k).trim (seg.shift k)) sflags =
      ((s.receive (s.trim seg) sflags).1.shift k, (s.receive (s.trim seg) sflags).2) := by
  by_cases hkeeps : Keeps k seg.seq s.rcv.rcvNxt
  · rw [trim_shift hkeeps]
    exact receive_shift hstore sflags
  · have hhidden := mt htrim hkeeps
    have hne : seg.seq ≠ s.rcv.rcvNxt := fun heq => hkeeps (.of_eq heq)
    have hne' : (seg.shift k).seq ≠ (s.shift k).rcv.rcvNxt := fun h => hne (shift_inj.mp h)
    rw [receive_hidden hne hhidden, receive_hidden hne' (mt trimShows_shift.mp hhidden)]

theorem storeStable_of_receive (htrim : s.TrimShows seg s.room → Keeps k seg.seq s.rcv.rcvNxt)
    (h : ((s.shift k).receive ((s.shift k).trim (seg.shift k)) sflags).1.rcv =
      ((s.receive (s.trim seg) sflags).1.shift k).rcv) : StoreStable k s (s.trim seg) := by
  by_cases hkeeps : Keeps k seg.seq s.rcv.rcvNxt
  · rw [trim_shift hkeeps] at h
    exact storeStable_of_eq sflags h
  · have hne : seg.seq ≠ s.rcv.rcvNxt := fun heq => hkeeps (.of_eq heq)
    intro h0 hopen
    rcases trim_hidden hne (mt htrim hkeeps) with hempty | ⟨hign, -⟩
    · exact absurd hempty h0
    · rw [ignoresData_trim, hign] at hopen
      cases hopen

/-! ## Payload -/

/-- What follows the acknowledgement compares alike, as far as that shows. -/
structure DataStable (k : Uint32) (s : PseudoTcp) (seg : Segment) : Prop where
  trim : s.TrimShows seg s.room → Keeps k seg.seq s.rcv.rcvNxt
  store : StoreStable k s (s.trim seg)
  send : SendStable k (s.receive (s.trim seg) (s.ackFlags seg)).1

theorem notifyReadable_rcv (s : PseudoTcp) (bNewData : Bool) : (s.notifyReadable bNewData).rcv = s.rcv := by
  unfold notifyReadable
  split_ifs <;> rfl

theorem records_notifyReadable (s : PseudoTcp) (bNewData : Bool) :
    (s.notifyReadable bNewData).records = s.records + if bNewData ∧ s.readEnable then 1 else 0 := by
  unfold notifyReadable
  split_ifs
  · unfold records emit
    dsimp only
    rw [List.length_append, List.length_singleton]
    omega
  · rfl

theorem rcv_shift_congr {t t' : PseudoTcp} (h : t.rcv = t'.rcv) : (t.shift k).rcv = (t'.shift k).rcv := by
  unfold shift
  simp only [h]

theorem sent_rcv (s : PseudoTcp) (sflags : SendFlags) (bNewData : Bool) :
    ((s.attemptSend sflags).notifyReadable bNewData).rcv = s.rcv :=
  (notifyReadable_rcv _ bNewData).trans (SendFrame.attemptSend s sflags).rcv

theorem sent_shift_iff (s : PseudoTcp) (sflags : SendFlags) (bNewData : Bool) :
    ((s.shift k).attemptSend sflags).notifyReadable bNewData =
      ((s.attemptSend sflags).notifyReadable bNewData).shift k ↔ SendStable k s := by
  constructor
  · intro h
    have hrecords := congrArg records h
    have hread : ((s.shift k).attemptSend sflags).readEnable = (s.attemptSend sflags).readEnable :=
      (SendFrame.attemptSend (s.shift k) sflags).readEnable.trans (SendFrame.attemptSend s sflags).readEnable.symm
    rw [records_shift, records_notifyReadable, records_notifyReadable, hread] at hrecords
    exact sendStable_of_records sflags (Nat.add_right_cancel hrecords)
  · intro h
    rw [attemptSend_shift h, notifyReadable_shift]

theorem processData_shift_iff {bConnect : Bool} :
    (s.shift k).processData (seg.shift k) bConnect = (s.processData seg bConnect).shift k ↔
      DataStable k (s.openIfSynReceived bConnect).notifyWriteable seg := by
  unfold processData
  rw [openIfSynReceived_shift, notifyWriteable_shift]
  generalize (s.openIfSynReceived bConnect).notifyWriteable = t
  dsimp only
  rw [ackFlags_shift]
  constructor
  · intro h
    have hrcv := congrArg PseudoTcp.rcv h
    rw [sent_rcv] at hrcv
    replace hrcv := hrcv.trans (rcv_shift_congr (sent_rcv _ _ _))
    have htrim := fun hshows => keeps_of_receive hshows hrcv
    have hstore := storeStable_of_receive htrim hrcv
    rw [receive_trim_shift htrim hstore] at h
    exact ⟨htrim, hstore, (sent_shift_iff _ _ _).mp h⟩
  · intro h
    rw [receive_trim_shift h.trim h.store]
    exact (sent_shift_iff _ _ _).mpr h.send

/-! ## Acknowledgements -/

theorem ackCongestion_dupAcks (s : PseudoTcp) (nAcked now : Uint32) :
    (s.ackCongestion nAcked now).1.dupAcks =
      if s.dupAcks ≥ 3 ∧ s.snd.sndUna < s.recover then s.dupAcks else 0 := by
  have hfront := (SendFrame.transmitFront s now).dupAcks
  unfold ackCongestion
  by_cases h3 : s.dupAcks ≥ 3
  · by_cases hrec : s.snd.sndUna ≥ s.recover
    · rw [if_pos h3, if_pos hrec, if_neg fun h => absurd hrec (BitVec.not_le.mpr h.2)]
    · rw [if_pos h3, if_neg hrec, if_pos ⟨h3, BitVec.not_le.mp hrec⟩]
      split
      · next t heq =>
        rw [heq] at hfront
        exact hfront
      · next t heq =>
        rw [heq] at hfront
        exact hfront
  · rw [if_neg h3, if_neg fun h : s.dupAcks ≥ 3 ∧ s.snd.sndUna < s.recover => h3 h.1]

def ackTrace (s : PseudoTcp) : Uint32 × Uint32 := (s.tsRecent, s.snd.sndUna)

theorem updateRtt_frame (s : PseudoTcp) (tsecr now : Uint32) : (s.updateRtt tsecr now).ackTrace = s.ackTrace ∧
    (s.updateRtt tsecr now).dupAcks = s.dupAcks ∧ (s.updateRtt tsecr now).recover = s.recover := by
  unfold updateRtt
  split_ifs <;> exact ⟨rfl, rfl, rfl⟩

theorem ackCongestion_ackTrace (s : PseudoTcp) (nAcked now : Uint32) :
    (s.ackCongestion nAcked now).1.ackTrace = s.ackTrace := by
  rcases ackCongestion_cases s nAcked now with ⟨cwnd, h⟩ | ⟨-, -, cwnd, h⟩
  · rw [h]
    rfl
  · rw [h]
    unfold ackTrace
    dsimp only
    rw [(SendFrame.transmitFront s now).tsRecent, (SendFrame.transmitFront s now).sndUna]

theorem duplicateAck_ackTrace (s : PseudoTcp) (now : Uint32) : (s.duplicateAck now).1.ackTrace = s.ackTrace := by
  rcases duplicateAck_cases s now with ⟨cwnd, h⟩ | ⟨t, ht, -, recover, ssthresh, cwnd, -, h⟩
  · rw [h]
    rfl
  · rw [h, ht]
    unfold ackTrace
    dsimp only
    rw [(SendFrame.transmitFront _ now).tsRecent, (SendFrame.transmitFront _ now).sndUna]

theorem handleAck_shows (s : PseudoTcp) (seg : Segment) (now : Uint32) :
    (s.handleAck seg now).1.ackTrace = (s.tsRecent, if s.isValuable seg.ack then seg.ack else s.snd.sndUna) ∧
      (s.isValuable seg.ack = true → (s.handleAck seg now).1.dupAcks =
        if s.dupAcks ≥ 3 ∧ seg.ack < s.recover then s.dupAcks else 0) := by
  rcases handleAck_cases s seg now with ⟨hv, t, ht, h⟩ | ⟨hv, -, t, ht, h⟩ | ⟨hv, h⟩ <;> rw [hv]
  · obtain ⟨hack, hdup, hrec⟩ := updateRtt_frame s seg.tsecr now
    rw [← ht] at hack hdup hrec
    obtain ⟨hts, -⟩ := Prod.mk.inj hack
    have hadvanced (u : PseudoTcp) : (u.advanceUna seg.ack now).tsRecent = u.tsRecent ∧
        (u.advanceUna seg.ack now).dupAcks = u.dupAcks ∧ (u.advanceUna seg.ack now).recover = u.recover ∧
        (u.advanceUna seg.ack now).snd.sndUna = seg.ack := by
      simp only [advanceUna, check_eq, and_self]
    obtain ⟨hts', hdup', hrec', huna⟩ := hadvanced { t with snd.sndWnd := t.announcedWindow seg }
    rw [h]
    refine ⟨?_, fun _ => ?_⟩
    · rw [ackCongestion_ackTrace, ackTrace, hts', huna, if_pos rfl]
      exact congrArg (·, seg.ack) hts
    · rw [ackCongestion_dupAcks, hdup', hrec', huna]
      dsimp only
      rw [hdup, hrec]
  · refine ⟨?_, fun h => absurd h (by decide)⟩
    rw [if_neg (by decide)]
    have hpart : t.ackTrace = s.ackTrace := by
      rw [ht]
      rfl
    rcases h with h | h | ⟨-, h⟩ <;> rw [h]
    · exact hpart
    · exact hpart
    · exact (duplicateAck_ackTrace t now).trans hpart
  · rw [h, if_neg (by decide)]
    exact ⟨rfl, fun h => absurd h (by decide)⟩

theorem processData_ackTrace (s : PseudoTcp) (seg : Segment) (bConnect : Bool) :
    (s.processData seg bConnect).ackTrace = s.ackTrace ∧ (s.processData seg bConnect).dupAcks = s.dupAcks := by
  have hopen : ((s.openIfSynReceived bConnect).notifyWriteable.ackTrace,
      (s.openIfSynReceived bConnect).notifyWriteable.dupAcks) = (s.ackTrace, s.dupAcks) := by
    unfold notifyWriteable openIfSynReceived
    dsimp only
    split_ifs <;> rfl
  unfold processData
  generalize (s.openIfSynReceived bConnect).notifyWriteable = t at hopen ⊢
  dsimp only
  have hnotify (u : PseudoTcp) (b : Bool) :
      (u.notifyReadable b).ackTrace = u.ackTrace ∧ (u.notifyReadable b).dupAcks = u.dupAcks := by
    unfold notifyReadable
    split_ifs <;> exact ⟨rfl, rfl⟩
  have hreceive : (t.receive (t.trim seg) (t.ackFlags seg)).1.ackTrace = t.ackTrace ∧
      (t.receive (t.trim seg) (t.ackFlags seg)).1.dupAcks = t.dupAcks := by
    obtain ⟨r, fs, h, -, -⟩ := RecvFrame.receive t (t.trim seg) (t.ackFlags seg)
    rw [h]
    exact ⟨rfl, rfl⟩
  have hsent := SendFrame.attemptSend (t.receive (t.trim seg) (t.ackFlags seg)).1
    (t.receive (t.trim seg) (t.ackFlags seg)).2.1
  obtain ⟨hpart, hdup⟩ := hnotify ((t.receive (t.trim seg) (t.ackFlags seg)).1.attemptSend
    (t.receive (t.trim seg) (t.ackFlags seg)).2.1) (t.receive (t.trim seg) (t.ackFlags seg)).2.2
  obtain ⟨hopenPart, hopenDup⟩ := Prod.mk.inj hopen
  rw [hpart, hdup, hsent.dupAcks, hreceive.2, hopenDup]
  refine ⟨?_, rfl⟩
  rw [← hopenPart, ← hreceive.1]
  unfold ackTrace
  rw [hsent.tsRecent, hsent.sndUna]

/-! ## The whole -/

def acknowledged (s : PseudoTcp) (seg : Segment) : PseudoTcp × Bool :=
  ((s.noteTraffic.control seg).1.updateTimestamp seg).handleAck seg s.now

/-- The object when `process` comes to the payload. -/
def atPayload (s : PseudoTcp) (seg : Segment) : PseudoTcp :=
  ((s.acknowledged seg).1.openIfSynReceived (seg.flags &&& flagCtl ≠ 0)).notifyWriteable

theorem control_accepted {t : PseudoTcp} (h : s.accepts seg = true) :
    t.control seg = ((t.control seg).1, some (decide (seg.flags &&& flagCtl ≠ 0))) := by
  simp only [accepts, Bool.and_eq_true, Bool.or_eq_true, decide_eq_true_eq] at h
  unfold control
  by_cases hctl : seg.flags &&& flagCtl = 0
  · rw [if_pos hctl, decide_eq_false (not_not.mpr hctl)]
  · obtain ⟨hlen, hdata⟩ := h.2.resolve_left hctl
    rw [if_neg hctl, if_neg hlen, if_pos hdata, decide_eq_true hctl]

theorem process_accepted (h : s.accepts seg = true) : s.process seg =
    match s.acknowledged seg with
    | (t, true) => (t.processData seg (seg.flags &&& flagCtl ≠ 0), true)
    | (t, false) => (t.closedown .econnaborted, false) := by
  have hcontrol := control_accepted (t := s.noteTraffic) h
  simp only [accepts, Bool.and_eq_true, decide_eq_true_eq] at h
  obtain ⟨⟨⟨hconv, hclosed⟩, hrst⟩, -⟩ := h
  unfold process processSegment processAck acknowledged
  rw [if_neg (not_not.mpr hconv), if_neg hclosed, if_neg (not_not.mpr hrst), hcontrol]
  dsimp only
  generalize ((s.noteTraffic.control seg).1.updateTimestamp seg).handleAck seg s.now = r
  obtain ⟨t, ok⟩ := r
  cases ok <;> rfl

def ackInput (s : PseudoTcp) :=
  (s.tsRecent, s.tsLastack, s.snd.sndUna, s.snd.sndNxt, s.dupAcks, s.recover, s.rcv.rcvNxt, s.rcv.rlist, s.shutdown)

theorem control_ackInput (s : PseudoTcp) (seg : Segment) : (s.control seg).1.ackInput = s.ackInput := by
  unfold control
  split_ifs
  · rfl
  · rfl
  · have hopt (data : List Uint8) : (s.parseOptions data).ackInput = s.ackInput := by
      rcases parseOptions_cases s data with ⟨scale, h⟩ | ⟨-, h⟩
      · rw [h]
        rfl
      · rw [h, resizeReceiveBuffer_eq]
        rfl
    rw [← hopt (block seg.data 1 (seg.len - 1).toNat)]
    generalize s.parseOptions (block seg.data 1 (seg.len - 1).toNat) = t
    unfold connectReceived
    cases t.state with
    | listen =>
      simp only [queueConnectMessage, queue, check_eq]
      rfl
    | synSent => rfl
    | synReceived => rfl
    | established => rfl
    | closed => rfl
  · rfl

theorem Steadies.payload (h : Steadies s s') : (s'.rcv.rcvNxt, s'.rcv.rlist, s'.shutdown, s'.rcv.rbuf) =
    (s.rcv.rcvNxt, s.rcv.rlist, s.shutdown, s.rcv.rbuf) := by
  induction h with
  | refl => rfl
  | tail _ hm ih => rw [← ih, hm.rcvNxt, hm.rlist, hm.shutdown, hm.rbuf]

def payloadRoom (s : PseudoTcp) (seg : Segment) : Uint32 := (s.noteTraffic.control seg).1.room

theorem atPayload_payload (s : PseudoTcp) (seg : Segment) :
    ((s.atPayload seg).rcv.rcvNxt, (s.atPayload seg).rcv.rlist, (s.atPayload seg).shutdown, (s.atPayload seg).rcv.rbuf) =
      (s.rcv.rcvNxt, s.rcv.rlist, s.shutdown, (s.noteTraffic.control seg).1.rcv.rbuf) := by
  have hcontrol := control_ackInput s.noteTraffic seg
  simp only [ackInput, Prod.mk.injEq] at hcontrol
  obtain ⟨-, -, -, -, -, -, hnxt, hlist, hshut⟩ := hcontrol
  have hack := Steadies.payload ((Steadies.ackRule.updateTimestamp (s.noteTraffic.control seg).1 seg).trans
    (Steadies.ackRule.handleAck _ seg s.now))
  have hopen (t : PseudoTcp) (b : Bool) : (t.openIfSynReceived b).rcv = t.rcv ∧
      (t.openIfSynReceived b).shutdown = t.shutdown := by
    unfold openIfSynReceived
    split_ifs <;> exact ⟨rfl, rfl⟩
  obtain ⟨hrcv, hshut'⟩ := hopen (s.acknowledged seg).1 (seg.flags &&& flagCtl ≠ 0)
  unfold atPayload
  rw [Steadies.payload (Steadies.notifyWriteable _), hrcv, hshut']
  refine hack.trans ?_
  rw [hnxt, hlist, hshut]
  rfl

/-- **What the shift has to keep of the comparisons** of `process`: their outcomes, where they
show. -/
structure Stable (k : Uint32) (s : PseudoTcp) (seg : Segment) : Prop where
  timestamp : seg.tsval = s.tsRecent ∨ TimestampStable k s seg
  ack : AckStable k s seg
  trim : (s.acknowledged seg).2 = true → s.TrimShows seg (s.payloadRoom seg) → Keeps k seg.seq s.rcv.rcvNxt
  store : (s.acknowledged seg).2 = true → StoreStable k s (s.trim seg)
  send : (s.acknowledged seg).2 = true →
    SendStable k ((s.atPayload seg).receive ((s.atPayload seg).trim seg) ((s.atPayload seg).ackFlags seg)).1

theorem dataStable_iff : DataStable k (s.atPayload seg) seg ↔
    (s.TrimShows seg (s.payloadRoom seg) → Keeps k seg.seq s.rcv.rcvNxt) ∧ StoreStable k s (s.trim seg) ∧
      SendStable k
        ((s.atPayload seg).receive ((s.atPayload seg).trim seg) ((s.atPayload seg).ackFlags seg)).1 := by
  have hpayload := atPayload_payload s seg
  simp only [Prod.mk.injEq] at hpayload
  obtain ⟨hnxt, hlist, hshut, hbuf⟩ := hpayload
  have hign (g : Segment) : (s.atPayload seg).ignoresData g = s.ignoresData g := by
    unfold ignoresData
    rw [hshut]
  have hroom : (s.atPayload seg).room = s.payloadRoom seg := by
    unfold payloadRoom room
    rw [hbuf]
  have hsame (hopen : s.ignoresData seg = false) : (s.atPayload seg).rcv.rbuf = s.rcv.rbuf := by
    have hctl : seg.flags &&& flagCtl = 0 := by
      simp only [ignoresData, Bool.or_eq_false_iff, decide_eq_false_iff_not, not_not] at hopen
      exact hopen.1
    rw [hbuf, control, if_pos hctl]
    rfl
  have hright (hopen : s.ignoresData seg = false) : (s.atPayload seg).trimRight seg = s.trimRight seg := by
    unfold trimRight
    rw [hsame hopen, hnxt]
  have hshows : (s.atPayload seg).TrimShows seg (s.atPayload seg).room ↔ s.TrimShows seg (s.payloadRoom seg) := by
    unfold TrimShows
    rw [hroom, hnxt, hign]
    refine or_congr_right (and_congr_right fun hopen => ?_)
    rw [hright hopen]
  have hstore : StoreStable k (s.atPayload seg) ((s.atPayload seg).trim seg) ↔ StoreStable k s (s.trim seg) := by
    cases hopen : s.ignoresData seg with
    | true =>
      have hvacuous (t : PseudoTcp) (ht : t.ignoresData seg = true) : StoreStable k t (t.trim seg) := by
        intro _ hread
        rw [ignoresData_trim, ht] at hread
        cases hread
      exact iff_of_true (hvacuous _ (hign seg ▸ hopen)) (hvacuous s hopen)
    | false =>
      rw [trim_congr hnxt (hsame hopen)]
      unfold StoreStable
      rw [hign, hnxt, hlist]
  constructor
  · intro h
    exact ⟨fun hs => hnxt ▸ h.trim (hshows.mpr hs), hstore.mp h.store, h.send⟩
  · rintro ⟨htrim, hstored, hsend⟩
    exact ⟨fun hs => hnxt.symm ▸ htrim (hshows.mp hs), hstore.mpr hstored, hsend⟩

theorem updateTimestamp_same (h : seg.tsval = s.tsRecent) : s.updateTimestamp seg = s := by
  unfold updateTimestamp
  rw [h, ite_self]

theorem updateTimestamp_ackInput (s : PseudoTcp) (seg : Segment) :
    (s.updateTimestamp seg).snd = s.snd ∧ (s.updateTimestamp seg).dupAcks = s.dupAcks ∧
      (s.updateTimestamp seg).recover = s.recover := by
  unfold updateTimestamp
  split_ifs <;> exact ⟨rfl, rfl, rfl⟩

theorem acknowledged_shift (hts : seg.tsval = s.tsRecent ∨ TimestampStable k s seg) (hack : AckStable k s seg) :
    (s.shift k).acknowledged (seg.shift k) = ((s.acknowledged seg).1.shift k, (s.acknowledged seg).2) := by
  have htraffic : (s.shift k).noteTraffic = s.noteTraffic.shift k := rfl
  have hnow : (s.shift k).now = s.now := rfl
  have hcontrol := control_ackInput s.noteTraffic seg
  unfold acknowledged
  rw [htraffic, hnow, control_shift]
  generalize (s.noteTraffic.control seg).1 = t at hcontrol ⊢
  simp only [ackInput, Prod.mk.injEq] at hcontrol
  obtain ⟨hrecent, hlast, huna, hnxt, hdup, hrecover, -⟩ := hcontrol
  have hupdate : (t.shift k).updateTimestamp (seg.shift k) = (t.updateTimestamp seg).shift k := by
    rcases hts with hsame | hstable
    · have hsame : seg.tsval = t.tsRecent := hsame.trans hrecent.symm
      have hsame' : (seg.shift k).tsval = (t.shift k).tsRecent := hsame
      rw [updateTimestamp_same hsame, updateTimestamp_same hsame']
    · apply updateTimestamp_shift
      unfold TimestampStable
      rw [hlast]
      exact hstable
  rw [hupdate]
  apply handleAck_shift
  obtain ⟨hsnd, hdup', hrecover'⟩ := updateTimestamp_ackInput t seg
  unfold AckStable isValuable
  rw [hsnd, hdup', hrecover', huna, hnxt, hdup, hrecover]
  exact hack

def recentAfter (s : PseudoTcp) (seg : Segment) : Uint32 :=
  if seg.seq ≤ s.tsLastack ∧ s.tsLastack < seg.seq + seg.len then seg.tsval else s.tsRecent

def unaAfter (s : PseudoTcp) (seg : Segment) : Uint32 := if s.isValuable seg.ack then seg.ack else s.snd.sndUna

def dupsAfter (s : PseudoTcp) (seg : Segment) : Uint8 :=
  if s.dupAcks ≥ 3 ∧ seg.ack < s.recover then s.dupAcks else 0

theorem acknowledged_shows (s : PseudoTcp) (seg : Segment) :
    (s.acknowledged seg).1.ackTrace = (s.recentAfter seg, s.unaAfter seg) ∧
      (s.isValuable seg.ack = true → (s.acknowledged seg).1.dupAcks = s.dupsAfter seg) := by
  have hcontrol := control_ackInput s.noteTraffic seg
  unfold acknowledged
  generalize (s.noteTraffic.control seg).1 = t at hcontrol ⊢
  simp only [ackInput, Prod.mk.injEq] at hcontrol
  obtain ⟨hrecent, hlast, huna, hnxt, hdup, hrecover, -⟩ := hcontrol
  have hrecent' : (t.updateTimestamp seg).tsRecent = s.recentAfter seg := by
    unfold updateTimestamp recentAfter
    rw [apply_ite PseudoTcp.tsRecent, hlast, hrecent]
    rfl
  obtain ⟨hsnd, hdup', hrecover'⟩ := updateTimestamp_ackInput t seg
  have hvaluable : (t.updateTimestamp seg).isValuable seg.ack = s.isValuable seg.ack := by
    unfold isValuable
    rw [hsnd, huna, hnxt]
    rfl
  obtain ⟨hpart, hdups⟩ := handleAck_shows (t.updateTimestamp seg) seg s.now
  rw [hvaluable, hrecent', hsnd, huna] at hpart
  rw [hvaluable, hdup', hrecover', hdup, hrecover] at hdups
  exact ⟨hpart, hdups⟩

theorem process_shows (h : s.accepts seg = true) :
    (s.process seg).1.ackTrace = (s.recentAfter seg, s.unaAfter seg) ∧
      (s.isValuable seg.ack = true → (s.process seg).1.dupAcks = s.dupsAfter seg) := by
  rw [process_accepted h, ← (acknowledged_shows s seg).1]
  have hdups := (acknowledged_shows s seg).2
  generalize s.acknowledged seg = r at hdups ⊢
  obtain ⟨t, ok⟩ := r
  cases ok with
  | false => exact ⟨rfl, hdups⟩
  | true =>
    obtain ⟨hpart, hdup⟩ := processData_ackTrace t seg (seg.flags &&& flagCtl ≠ 0)
    exact ⟨hpart, fun hv => hdup.trans (hdups hv)⟩

theorem iff_of_ite_eq {α : Type} {p q : Prop} [Decidable p] [Decidable q] {a b : α} (hne : a ≠ b)
    (h : (if p then a else b) = if q then a else b) : p ↔ q := by
  by_cases hp : p <;> by_cases hq : q
  · exact iff_of_true hp hq
  · rw [if_pos hp, if_neg hq] at h
    exact absurd h hne
  · rw [if_neg hp, if_pos hq] at h
    exact absurd h.symm hne
  · exact iff_of_false hp hq

/-- **The comparisons of the acknowledgement part show.** -/
theorem ackStable_of_process (hacc : s.accepts seg = true)
    (h : ((s.shift k).process (seg.shift k)).1 = (s.process seg).1.shift k) :
    (seg.tsval = s.tsRecent ∨ TimestampStable k s seg) ∧ AckStable k s seg := by
  have hacc' : (s.shift k).accepts (seg.shift k) = true := hacc
  obtain ⟨hpart, hdups⟩ := process_shows hacc
  obtain ⟨hpart', hdups'⟩ := process_shows hacc'
  obtain ⟨hrecent, huna⟩ := Prod.mk.inj hpart
  rw [h] at hpart' hdups'
  obtain ⟨hrecent', huna'⟩ := Prod.mk.inj hpart'
  have hrecentAfter : (s.shift k).recentAfter (seg.shift k) = s.recentAfter seg := hrecent'.symm.trans hrecent
  have hunaAfter : (s.shift k).unaAfter (seg.shift k) = s.unaAfter seg + k :=
    huna'.symm.trans (congrArg (· + k) huna)
  have hvaluable : (s.shift k).isValuable (seg.shift k).ack = s.isValuable seg.ack := by
    unfold unaAfter at hunaAfter
    have hfresh (u : PseudoTcp) (a : Uint32) (ha : u.isValuable a = true) : a ≠ u.snd.sndUna := by
      rintro rfl
      unfold isValuable at ha
      simp at ha
    cases hv : s.isValuable seg.ack <;> cases hv' : (s.shift k).isValuable (seg.shift k).ack <;>
      rw [hv, hv'] at hunaAfter
    · exact absurd (shift_inj.mp hunaAfter) (fun heq => hfresh (s.shift k) _ hv' (congrArg (· + k) heq))
    · exact absurd (shift_inj.mp hunaAfter).symm (hfresh s _ hv)
  refine ⟨?_, ?_, fun hv h3 => ?_⟩
  · by_cases hsame : seg.tsval = s.tsRecent
    · exact .inl hsame
    · exact .inr (iff_of_ite_eq hsame hrecentAfter)
  · unfold isValuable at hvaluable
    rw [← Bool.decide_and, ← Bool.decide_and] at hvaluable
    exact decide_eq_decide.mp hvaluable
  · have hdups'' : (s.shift k).dupsAfter (seg.shift k) = s.dupsAfter seg :=
      (hdups' (hvaluable.trans hv)).symm.trans (hdups hv)
    have h0 : s.dupAcks ≠ 0 := by
      intro h0
      rw [h0] at h3
      exact absurd h3 (by decide)
    have hiff := iff_of_ite_eq h0 hdups''
    exact ⟨fun hlt => (hiff.mp ⟨h3, hlt⟩).2, fun hlt => (hiff.mpr ⟨h3, hlt⟩).2⟩

theorem process_rejected_shift (h : s.accepts seg = false) :
    (s.shift k).process (seg.shift k) = ((s.process seg).1.shift k, (s.process seg).2) := by
  have hconv : (seg.shift k).conv = seg.conv ∧ (s.shift k).conv = s.conv := ⟨rfl, rfl⟩
  have hstate : (s.shift k).state = s.state := rfl
  have hflags : (seg.shift k).flags = seg.flags := rfl
  have htraffic : (s.shift k).noteTraffic = s.noteTraffic.shift k := rfl
  have hnow : (s.shift k).now = s.now := rfl
  unfold process
  rw [hconv.1, hconv.2, hstate, hflags, htraffic, hnow]
  by_cases hc : seg.conv ≠ s.conv
  · rw [if_pos hc, if_pos hc]
  rw [if_neg hc, if_neg hc]
  by_cases hclosed : s.state = .closed
  · rw [if_pos hclosed, if_pos hclosed]
  rw [if_neg hclosed, if_neg hclosed]
  by_cases hrst : seg.flags &&& flagRst ≠ 0
  · rw [if_pos hrst, if_pos hrst, closedown_shift]
  rw [if_neg hrst, if_neg hrst]
  have hrejected := control_rejected (t := s.noteTraffic) h (not_ne_iff.mp hc) hclosed (not_ne_iff.mp hrst)
  unfold processSegment
  rw [control_shift, hrejected]

theorem process_accepted_shift (hacc : s.accepts seg = true)
    (hts : seg.tsval = s.tsRecent ∨ TimestampStable k s seg) (hack : AckStable k s seg) :
    (s.shift k).process (seg.shift k) = ((s.process seg).1.shift k, (s.process seg).2) ↔
      ((s.acknowledged seg).2 = true → DataStable k (s.atPayload seg) seg) := by
  have hacc' : (s.shift k).accepts (seg.shift k) = true := hacc
  have hflags : (seg.shift k).flags = seg.flags := rfl
  rw [process_accepted hacc, process_accepted hacc', acknowledged_shift hts hack, hflags]
  unfold atPayload
  generalize s.acknowledged seg = r
  obtain ⟨t, ok⟩ := r
  cases ok with
  | false =>
    dsimp only
    rw [closedown_shift]
    exact iff_of_true rfl (fun h => nomatch h)
  | true =>
    dsimp only
    rw [← processData_shift_iff, Prod.mk.injEq]
    exact ⟨fun h _ => h.1, fun h => ⟨h rfl, rfl⟩⟩

/-- **`process` commutes with the shift** of all sequence numbers exactly where the shift keeps the
outcome of the comparisons that show. -/
theorem process_shift_iff (k : Uint32) (s : PseudoTcp) (seg : Segment) :
    (s.shift k).process (seg.shift k) = ((s.process seg).1.shift k, (s.process seg).2) ↔
      (s.accepts seg = true → Stable k s seg) := by
  cases hacc : s.accepts seg with
  | false => exact iff_of_true (process_rejected_shift hacc) (fun h => nomatch h)
  | true =>
    constructor
    · intro h _
      obtain ⟨hts, hack⟩ := ackStable_of_process hacc (congrArg Prod.fst h)
      have hdata := (process_accepted_shift hacc hts hack).mp h
      exact ⟨hts, hack, fun hok => (dataStable_iff.mp (hdata hok)).1, fun hok => (dataStable_iff.mp (hdata hok)).2.1,
        fun hok => (dataStable_iff.mp (hdata hok)).2.2⟩
    · intro h
      obtain ⟨hts, hack, htrim, hstore, hsend⟩ := h rfl
      exact (process_accepted_shift hacc hts hack).mpr
        fun hok => dataStable_iff.mpr ⟨htrim hok, hstore hok, hsend hok⟩

instance (k a b : Uint32) : Decidable (Keeps k a b) := inferInstanceAs (Decidable (_ ↔ _))

/-- An object that has just been connected. -/
def connected : PseudoTcp := run step (new calmWorld 0) [.connect, .packet connectReply]

/-- **The numbers must not wrap**: an old duplicate is taken for a byte from the future. -/
theorem process_wraps : ¬ ∀ (k : Uint32) (s : PseudoTcp) (seg : Segment),
    (s.shift k).process (seg.shift k) = ((s.process seg).1.shift k, (s.process seg).2) := by
  intro h
  have hp := congrArg (fun r => r.1.rcv.rlist) (h (-4) connected (dataSegment 3 [9]))
  revert hp
  decide

example : ¬Keeps (-4) 3 connected.rcv.rcvNxt ∧
    connected.TrimShows (dataSegment 3 [9]) (connected.payloadRoom (dataSegment 3 [9])) ∧
    ¬connected.TrimShows (dataSegment 3 []) (connected.payloadRoom (dataSegment 3 [])) := by decide

end PseudoTcp

end Libjingle
