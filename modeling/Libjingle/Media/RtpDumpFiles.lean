import Libjingle.Lib.Run
import Libjingle.Media.RtpDump
import Mathlib.Data.List.TakeWhile

/-!
# The files of RTP dumps

Main results: **`exact_iff`**, **`dumps_sound`**, **`short_record`**.
-/

variable {line header : List Uint8} {ps : List RtpDumpPacket}

namespace Libjingle.RtpDump

open Lib

/-! ## Words in a list -/

theorem getBE16_append (x : List Uint8) (v : Uint16) (tail : List Uint8) :
    getBE16 (x ++ (wordBytes 2 v ++ tail)) x.length = v := by
  rw [getBE16, List.drop_left, List.take_left' (length_wordBytes 2 v)]
  exact ofNat_wordBytes 2 v

theorem getBE32_append (x : List Uint8) (v : Uint32) (tail : List Uint8) :
    getBE32 (x ++ (wordBytes 4 v ++ tail)) x.length = v := by
  rw [getBE32, List.drop_left, List.take_left' (length_wordBytes 4 v)]
  exact ofNat_wordBytes 4 v

theorem length_resize (data : List Uint8) (size : ℕ) : (resize data size).length = size := by
  rw [resize, List.length_append, List.length_take, List.length_replicate]
  omega

theorem overwrite_resize (data bytes : List Uint8) : overwrite (resize data bytes.length) 0 bytes = bytes := by
  have hlen := length_resize data bytes.length
  rw [overwrite, List.take_zero, List.nil_append, Nat.zero_add, List.drop_eq_nil_of_le (by omega),
    List.append_nil]

namespace MemoryStream

variable {s s' : MemoryStream}

theorem readAll_append {x tail : List Uint8} (h : s.rest = x ++ tail) :
    s.readAll x.length = some (.success, x, s.skip x.length) ∧ (s.skip x.length).rest = tail := by
  constructor
  · rw [readAll_eq, h, if_pos (by rw [List.length_append]; omega), List.take_left]
  · rw [rest_skip, h, List.drop_left]

theorem readLine_append {tail : List Uint8} (hline : newline ∉ line) (h : s.rest = line ++ newline :: tail) :
    s.readLine = some (.success, line, s.skip (line.length + 1)) ∧ (s.skip (line.length + 1)).rest = tail := by
  have htake : s.rest.takeWhile (· ≠ newline) = line := by
    have hall : ∀ ch ∈ line, decide (ch ≠ newline) = true := fun ch hch =>
      decide_eq_true (ne_of_mem_of_not_mem hch hline)
    rw [h, List.takeWhile_append_of_pos hall, List.takeWhile_cons_of_neg (by simp), List.append_nil]
  constructor
  · rw [readLine_eq, if_pos (by rw [h]; exact List.mem_append_right _ List.mem_cons_self), htake]
  · rw [rest_skip, h, List.append_cons]
    exact List.drop_left' (by rw [List.length_append]; rfl)

end MemoryStream

/-! ## Records -/

def record (p : RtpDumpPacket) : List Uint8 :=
  wordBytes 2 (BitVec.ofNat 16 (8 + p.data.length)) ++
    wordBytes 2 (BitVec.ofNat 16 p.originalDataLen) ++ wordBytes 4 p.elapsedTime ++ p.data

/-- The lengths of the packet are numbers of 16 bits. -/
structure Recordable (p : RtpDumpPacket) : Prop where
  length : p.data.length ≤ 65527
  original : p.originalDataLen < 2 ^ 16

def dumpFile (line header : List Uint8) (packets : List RtpDumpPacket) : List Uint8 :=
  line ++ newline :: (header ++ packets.flatMap record)

variable {r : RtpDumpReader} {p : RtpDumpPacket} {tail : List Uint8}

theorem subtractSize_of_le {a b : ℕ} (hle : b ≤ a) (hlt : a < 2 ^ 64) : subtractSize a b = a - b := by
  unfold subtractSize
  omega

/-- **A record that was written is read back**. -/
theorem readRecord_record (hp : Recordable p) (hssrc : r.ssrcOverride = 0)
    (hrest : r.stream.rest = record p ++ tail) (packet : RtpDumpPacket) :
    (r.readRecord packet).outcome = .returned .success ∧ (r.readRecord packet).packet = p ∧
      (r.readRecord packet).reader = { r with stream := r.stream.skip (record p).length } := by
  obtain ⟨hlen, horig⟩ := hp
  generalize hheader : wordBytes 2 (BitVec.ofNat 16 (8 + p.data.length)) ++
    wordBytes 2 (BitVec.ofNat 16 p.originalDataLen) ++ wordBytes 4 p.elapsedTime = header
  have hrecord : record p = header ++ p.data := by rw [record, hheader]
  have hheaderlen : header.length = 8 := by
    rw [← hheader, List.length_append, List.length_append, length_wordBytes, length_wordBytes,
      length_wordBytes]
  have hlength : (getBE16 header 0).toNat = 8 + p.data.length := by
    have h := getBE16_append [] (BitVec.ofNat 16 (8 + p.data.length))
      (wordBytes 2 (BitVec.ofNat 16 p.originalDataLen) ++ wordBytes 4 p.elapsedTime)
    rw [List.nil_append, ← List.append_assoc, hheader] at h
    rw [show getBE16 header 0 = _ from h, BitVec.toNat_ofNat]
    exact Nat.mod_eq_of_lt (by omega)
  have horiginal : (getBE16 header 2).toNat = p.originalDataLen := by
    have h := getBE16_append (wordBytes 2 (BitVec.ofNat 16 (8 + p.data.length)))
      (BitVec.ofNat 16 p.originalDataLen) (wordBytes 4 p.elapsedTime)
    rw [← List.append_assoc, hheader] at h
    rw [show getBE16 header 2 = _ from h, BitVec.toNat_ofNat]
    exact Nat.mod_eq_of_lt horig
  have helapsed : getBE32 header 4 = p.elapsedTime := by
    have h := getBE32_append (wordBytes 2 (BitVec.ofNat 16 (8 + p.data.length)) ++
      wordBytes 2 (BitVec.ofNat 16 p.originalDataLen)) p.elapsedTime []
    rwa [List.append_nil, hheader] at h
  have hsize : subtractSize (getBE16 header 0).toNat 8 = p.data.length := by
    rw [hlength, subtractSize_of_le (by omega) (by omega)]
    omega
  rw [hrecord, List.append_assoc] at hrest
  obtain ⟨hread, hrest'⟩ := MemoryStream.readAll_append hrest
  obtain ⟨hread', -⟩ := MemoryStream.readAll_append hrest'
  rw [hheaderlen] at hread hread'
  have hnever : ¬ p.data.length > kMaxSize := by
    unfold kMaxSize
    omega
  have hhead : r.readRecord packet =
      { r with stream := r.stream.skip 8 }.readBody packet header p.data.length := by
    unfold RtpDumpReader.readRecord
    rw [hread]
    simp only [hsize, ne_eq, not_true_eq_false, if_false]
  have hbody : { r with stream := r.stream.skip 8 }.readBody packet header p.data.length =
      ⟨.returned .success, { r with stream := (r.stream.skip 8).skip p.data.length }, p,
        some (getBE16 header 0, p.data.length)⟩ := by
    unfold RtpDumpReader.readBody
    rw [if_neg hnever]
    simp only [hread']
    rw [overwrite_resize, helapsed, horiginal, if_neg fun h => h.2.2 hssrc]
  rw [hhead, hbody, MemoryStream.skip_skip, hrecord, List.length_append, hheaderlen]
  exact ⟨rfl, rfl, rfl⟩

theorem readFileHeader_dumpFile (hfirst : RtpDumpReader.checkFirstLine line = true)
    (hline : newline ∉ line) (hheader : header.length = kFileHeaderLength)
    (hrest : r.stream.rest = line ++ newline :: (header ++ tail)) :
    ∃ r', r.readFileHeader = some (.success, r') ∧
      r'.stream = r.stream.skip (line.length + 1 + kFileHeaderLength) ∧ r'.stream.rest = tail ∧
      r'.firstLineAndFileHeaderLen = line.length + 1 + kFileHeaderLength ∧
      r'.ssrcOverride = r.ssrcOverride := by
  obtain ⟨hread, hrest'⟩ := MemoryStream.readLine_append hline hrest
  obtain ⟨hread', hrest''⟩ := MemoryStream.readAll_append hrest'
  rw [hheader] at hread' hrest''
  have hno : ¬ (StreamResult.success ≠ .success) := fun h => h rfl
  simp only [RtpDumpReader.readFileHeader, hread, Option.bind_some, if_neg hno, hfirst, Bool.not_true,
    Bool.false_eq_true, if_false, hread', Option.map_some, if_true]
  exact ⟨_, rfl, MemoryStream.skip_skip _ _, hrest'', rfl, rfl⟩

/-- A dump: first line, header, and packets that fit. -/
structure ValidDump (line header : List Uint8) (ps : List RtpDumpPacket) : Prop where
  first : RtpDumpReader.checkFirstLine line = true
  line : newline ∉ line
  header : header.length = kFileHeaderLength
  packets : ∀ p ∈ ps, Recordable p

/-- A reader of the dump that has read the file header, with these packets ahead of it. -/
structure Ahead (line header : List Uint8) (ps qs : List RtpDumpPacket) (r : RtpDumpReader) : Prop where
  read : r.fileHeaderRead = true
  ssrc : r.ssrcOverride = 0
  start : r.firstLineAndFileHeaderLen = line.length + 1 + kFileHeaderLength
  data : r.stream.data = dumpFile line header ps
  rest : r.stream.rest = qs.flatMap record

theorem ahead_new (hd : ValidDump line header ps) :
    ∃ r', Ahead line header ps ps r' ∧
      ∀ packet, (RtpDumpReader.new (dumpFile line header ps)).readPacket packet = r'.readPacket packet := by
  obtain ⟨r', hread, hstream, hrest, hlen, hssrc⟩ := readFileHeader_dumpFile
    (r := .new (dumpFile line header ps)) hd.first hd.line hd.header rfl
  have hdata : r'.stream.data = dumpFile line header ps := by
    rw [hstream]
    rfl
  refine ⟨{ r' with fileHeaderRead := true }, ⟨rfl, hssrc, hlen, hdata, hrest⟩, fun packet => ?_⟩
  have hnew : ¬ (RtpDumpReader.new (dumpFile line header ps)).fileHeaderRead = true := Bool.false_ne_true
  have hno : ¬ (StreamResult.success ≠ .success) := fun h => h rfl
  rw [RtpDumpReader.readPacket, RtpDumpReader.readPacket, if_neg hnew, hread, if_pos rfl]
  exact if_neg hno

/-! ## Inside the file -/

namespace MemoryStream

variable {s s' s'' : MemoryStream}

def Advances (s s' : MemoryStream) : Prop := ∃ n ≤ s.rest.length, s' = s.skip n

theorem Advances.refl (s : MemoryStream) : Advances s s := ⟨0, Nat.zero_le _, rfl⟩

theorem Advances.trans (h : Advances s s') (h' : Advances s' s'') : Advances s s'' := by
  obtain ⟨m, hm, rfl⟩ := h
  obtain ⟨n, hn, rfl⟩ := h'
  rw [rest_skip, List.length_drop] at hn
  exact ⟨m + n, by omega, skip_skip m n⟩

theorem Advances.inside (h : Advances s s') (hs : s.position ≤ s.data.length) :
    s'.data = s.data ∧ s.position ≤ s'.position ∧ s'.position ≤ s.data.length := by
  obtain ⟨n, hn, rfl⟩ := h
  rw [rest, List.length_drop] at hn
  exact ⟨rfl, Nat.le_add_right _ _, show s.position + n ≤ s.data.length by omega⟩

theorem readAll_cases (s : MemoryStream) (bytes : ℕ) :
    (∃ s', s.readAll bytes = some (.success, s.rest.take bytes, s') ∧ bytes ≤ s.rest.length ∧
      s' = s.skip bytes) ∨
      ∃ s', s.readAll bytes = some (.eos, s.rest, s') ∧ s.rest.length < bytes ∧ Advances s s' := by
  rw [readAll_eq]
  split_ifs with h
  · exact .inl ⟨_, rfl, h, rfl⟩
  · exact .inr ⟨_, rfl, not_le.mp h, s.rest.length, le_refl _, rfl⟩

theorem readAll_returns (s : MemoryStream) (bytes : ℕ) :
    ∃ result x s', s.readAll bytes = some (result, x, s') ∧ (result = .success ∨ result = .eos) ∧
      Advances s s' := by
  rcases s.readAll_cases bytes with ⟨s', hread, hle, rfl⟩ | ⟨s', hread, -, hadv⟩
  · exact ⟨_, _, _, hread, .inl rfl, bytes, hle, rfl⟩
  · exact ⟨_, _, _, hread, .inr rfl, hadv⟩

theorem readLine_returns (s : MemoryStream) :
    ∃ result line s', s.readLine = some (result, line, s') ∧ (result = .success ∨ result = .eos) ∧
      Advances s s' := by
  rw [readLine_eq]
  split_ifs with h hne
  · obtain ⟨x, y, hxy⟩ := List.append_of_mem h
    refine ⟨_, _, _, rfl, .inl rfl, _, ?_, rfl⟩
    have hle : (s.rest.takeWhile (· ≠ newline)).length < s.rest.length := by
      by_contra hge
      have hall := List.takeWhile_eq_self_iff.mp
        ((List.takeWhile_prefix (· ≠ newline)).eq_of_length_le (not_lt.mp hge))
      exact absurd rfl (of_decide_eq_true (hall newline h))
    omega
  · exact ⟨_, _, _, rfl, .inl rfl, _, le_refl _, rfl⟩
  · exact ⟨_, _, _, rfl, .inr rfl, _, le_refl _, rfl⟩

end MemoryStream

def Outcome.IsResult (o : Outcome) : Prop :=
  o = .returned .success ∨ o = .returned .eos ∨ o = .returned .error

/-- **A call is exact**: it reads inside the file, and asks for a buffer of the announced size. -/
structure Exact (r : RtpDumpReader) (packet : RtpDumpPacket) : Prop where
  data : (r.readPacket packet).reader.stream.data = r.stream.data
  forward : r.stream.position ≤ (r.readPacket packet).reader.stream.position
  inside : (r.readPacket packet).reader.stream.position ≤ r.stream.data.length
  size : ∀ len size, (r.readPacket packet).resized = some (len, size) →
    size + RtpDumpPacket.kHeaderLength = len.toNat
  returns : (r.readPacket packet).outcome.IsResult

def recordStart (r : RtpDumpReader) : Option ℕ :=
  if r.fileHeaderRead then some r.stream.position
  else
    match r.readFileHeader with
    | some (.success, r') => some r'.stream.position
    | _ => none

/-- **The next record is short**: below the packet header. -/
def ShortRecord (r : RtpDumpReader) : Prop :=
  ∃ start, recordStart r = some start ∧ start + RtpDumpPacket.kHeaderLength ≤ r.stream.data.length ∧
    (getBE16 r.stream.data start).toNat < RtpDumpPacket.kHeaderLength

/-- The record at the position of the stream is short. -/
def ShortHere (s : MemoryStream) : Prop :=
  RtpDumpPacket.kHeaderLength ≤ s.rest.length ∧
    (getBE16 (s.rest.take RtpDumpPacket.kHeaderLength) 0).toNat < RtpDumpPacket.kHeaderLength

/-- Reading a record goes on, with a buffer of the announced size. -/
structure RecordExact (r : RtpDumpReader) (packet : RtpDumpPacket) : Prop where
  advances : MemoryStream.Advances r.stream (r.readRecord packet).reader.stream
  size : ∀ len size, (r.readRecord packet).resized = some (len, size) →
    size + RtpDumpPacket.kHeaderLength = len.toNat
  returns : (r.readRecord packet).outcome.IsResult

theorem subtractSize_short {a b : ℕ} (hlt : a < b) (hb : b < 2 ^ 16) : kMaxSize < subtractSize a b := by
  unfold subtractSize kMaxSize
  omega

theorem readRecord_cases (r : RtpDumpReader) (packet : RtpDumpPacket) :
    (ShortHere r.stream ∧ (r.readRecord packet).outcome = .lengthError) ∨
      (¬ ShortHere r.stream ∧ RecordExact r packet) := by
  rcases r.stream.readAll_cases RtpDumpPacket.kHeaderLength with
    ⟨stream, hread, hle, rfl⟩ | ⟨stream, hread, hlt, hadv⟩
  · generalize hheader : r.stream.rest.take RtpDumpPacket.kHeaderLength = header at hread
    have heq : r.readRecord packet = { r with stream := r.stream.skip RtpDumpPacket.kHeaderLength }.readBody packet
        header (subtractSize (getBE16 header 0).toNat RtpDumpPacket.kHeaderLength) := by
      unfold RtpDumpReader.readRecord
      rw [hread]
      simp only [ne_eq, not_true_eq_false, if_false]
    have hskip : MemoryStream.Advances r.stream (r.stream.skip RtpDumpPacket.kHeaderLength) := ⟨_, hle, rfl⟩
    by_cases hshort : (getBE16 header 0).toNat < RtpDumpPacket.kHeaderLength
    · refine .inl ⟨⟨hle, hheader ▸ hshort⟩, ?_⟩
      rw [heq, RtpDumpReader.readBody, if_pos (subtractSize_short hshort (by decide))]
    · have hnot : ¬ ShortHere r.stream := fun h => hshort (hheader ▸ h.2)
      have hlen := (getBE16 header 0).isLt
      have hsize : subtractSize (getBE16 header 0).toNat RtpDumpPacket.kHeaderLength =
          (getBE16 header 0).toNat - RtpDumpPacket.kHeaderLength :=
        subtractSize_of_le (not_lt.mp hshort) (by omega)
      have hnever : ¬ (getBE16 header 0).toNat - RtpDumpPacket.kHeaderLength > kMaxSize := by
        unfold kMaxSize
        omega
      rw [hsize] at heq
      refine .inr ⟨hnot, ?_⟩
      obtain ⟨result, bytes, stream, hread', hresult, hadv⟩ :=
        (r.stream.skip RtpDumpPacket.kHeaderLength).readAll_returns
          ((getBE16 header 0).toNat - RtpDumpPacket.kHeaderLength)
      rw [RtpDumpReader.readBody, if_neg hnever, hread'] at heq
      refine ⟨?_, ?_, ?_⟩
      · rw [heq]
        exact hskip.trans hadv
      · rw [heq]
        intro len size h
        cases h
        exact Nat.sub_add_cancel (not_lt.mp hshort)
      · rw [heq]
        exact hresult.imp (congrArg _) fun h => .inl (congrArg _ h)
  · have heq : r.readRecord packet = ⟨.returned .eos, { r with stream := stream }, packet, none⟩ := by
      unfold RtpDumpReader.readRecord
      rw [hread]
      rfl
    refine .inr ⟨fun h => absurd h.1 (not_le.mpr hlt), ?_, ?_, ?_⟩
    · rw [heq]
      exact hadv
    · rw [heq]
      exact fun len size h => nomatch h
    · rw [heq]
      exact .inr (.inl rfl)

theorem readFileHeader_cases (r : RtpDumpReader) :
    ∃ result r', r.readFileHeader = some (result, r') ∧ MemoryStream.Advances r.stream r'.stream ∧
      (result = .success ∨ result = .eos ∨ result = .error) := by
  obtain ⟨result, line, stream, hline, hresult, hadv⟩ := r.stream.readLine_returns
  unfold RtpDumpReader.readFileHeader
  rw [hline, Option.bind_some]
  split_ifs with hsuccess hcheck
  · exact ⟨_, _, rfl, hadv, hresult.imp_right .inl⟩
  · exact ⟨_, _, rfl, hadv, .inr (.inr rfl)⟩
  · obtain ⟨result', header, stream', hread, hresult', hadv'⟩ := stream.readAll_returns kFileHeaderLength
    rw [hread, Option.map_some]
    split_ifs
    · exact ⟨_, _, rfl, hadv.trans hadv', .inl rfl⟩
    · exact ⟨_, _, rfl, hadv.trans hadv', hresult'.imp_right .inl⟩

theorem shortHere_iff {s : MemoryStream} (hs : s.position ≤ s.data.length) :
    ShortHere s ↔ s.position + RtpDumpPacket.kHeaderLength ≤ s.data.length ∧
      (getBE16 s.data s.position).toNat < RtpDumpPacket.kHeaderLength := by
  have hlen : s.rest.length = s.data.length - s.position := List.length_drop
  have hword : getBE16 (s.rest.take RtpDumpPacket.kHeaderLength) 0 = getBE16 s.data s.position := by
    rw [getBE16, getBE16, List.drop_zero, List.take_take]
    rfl
  rw [ShortHere, hword, hlen]
  exact and_congr_left' (by omega)

/-- **A record is read exactly unless it is too short**. -/
theorem exact_iff {r : RtpDumpReader} (hr : r.stream.position ≤ r.stream.data.length) (packet : RtpDumpPacket) :
    Exact r packet ↔ ¬ ShortRecord r := by
  -- the reader at the record, if the call comes to one
  have hrecord {r' : RtpDumpReader} (hread : r.readPacket packet = r'.readRecord packet)
      (hstart : recordStart r = some r'.stream.position) (hadv : MemoryStream.Advances r.stream r'.stream) :
      Exact r packet ↔ ¬ ShortRecord r := by
    obtain ⟨hdata, hforward, hinside⟩ := hadv.inside hr
    have hshort : ShortRecord r ↔ ShortHere r'.stream := by
      rw [shortHere_iff (hdata ▸ hinside), hdata]
      constructor
      · rintro ⟨start, hs, h⟩
        obtain rfl := Option.some.inj (hstart.symm.trans hs)
        exact h
      · exact fun h => ⟨_, hstart, h⟩
    rw [hshort]
    rcases readRecord_cases r' packet with ⟨hs, hthrown⟩ | ⟨hs, hexact⟩
    · refine iff_of_false (fun h => ?_) (not_not.mpr hs)
      have hreturns := h.returns
      rw [hread, hthrown] at hreturns
      rcases hreturns with h | h | h <;> cases h
    · refine iff_of_true ?_ hs
      obtain ⟨hdata', hforward', hinside'⟩ := hexact.advances.inside (hdata ▸ hinside)
      refine ⟨?_, ?_, ?_, hread ▸ hexact.size, hread ▸ hexact.returns⟩
      · rw [hread, hdata', hdata]
      · rw [hread]
        exact hforward.trans hforward'
      · rw [hread, ← hdata]
        exact hinside'
  by_cases hheader : r.fileHeaderRead = true
  · exact hrecord (if_pos hheader) (if_pos hheader) (.refl _)
  · obtain ⟨result, r', hread, hadv, hresult⟩ := readFileHeader_cases r
    have hpacket : r.readPacket packet = if result ≠ .success then ⟨.returned result, r', packet, none⟩
        else { r' with fileHeaderRead := true }.readRecord packet := by
      unfold RtpDumpReader.readPacket
      rw [if_neg hheader, hread]
    by_cases hsuccess : result = .success
    · subst hsuccess
      rw [if_neg fun h => h rfl] at hpacket
      have hstart : recordStart r = some r'.stream.position := by rw [recordStart, if_neg hheader, hread]
      exact hrecord hpacket hstart hadv
    · rw [if_pos hsuccess] at hpacket
      have hnone : recordStart r = none := by
        rw [recordStart, if_neg hheader, hread]
        split
        · next heq => exact absurd (congrArg Prod.fst (Option.some.inj heq)) hsuccess
        · rfl
      obtain ⟨hdata, hforward, hinside⟩ := hadv.inside hr
      refine iff_of_true ⟨?_, ?_, ?_, ?_, ?_⟩ ?_
      · rw [hpacket, hdata]
      · rw [hpacket]
        exact hforward
      · rw [hpacket]
        exact hinside
      · rw [hpacket]
        exact fun len size h => nomatch h
      · rw [hpacket]
        exact hresult.imp (congrArg _) (Or.imp (congrArg _) (congrArg _))
      · rintro ⟨start, hs, -⟩
        rw [hnone] at hs
        cases hs

/-! ## Reading what was written -/

/-- The reader returns these packets, and then the end. -/
def Replays : RtpDumpReader → List RtpDumpPacket → Prop
  | r, [] => ∀ packet, (r.readPacket packet).outcome = .returned .eos
  | r, p :: ps => ∀ packet, (r.readPacket packet).outcome = .returned .success ∧
      (r.readPacket packet).packet = p ∧ Replays (r.readPacket packet).reader ps

theorem readRecord_eos (hrest : r.stream.rest = []) (packet : RtpDumpPacket) :
    (r.readRecord packet).outcome = .returned .eos := by
  rcases r.stream.readAll_cases RtpDumpPacket.kHeaderLength with ⟨-, -, hle, -⟩ | ⟨stream, hread, -⟩
  · rw [hrest] at hle
    cases hle
  · unfold RtpDumpReader.readRecord
    rw [hread]
    rfl

theorem Ahead.replays {qs : List RtpDumpPacket} (h : Ahead line header ps qs r)
    (hqs : ∀ q ∈ qs, Recordable q) : Replays r qs := by
  induction qs generalizing r with
  | nil =>
    intro packet
    rw [RtpDumpReader.readPacket, if_pos h.read]
    exact readRecord_eos h.rest packet
  | cons q qs ih =>
    intro packet
    have hrest := h.rest
    rw [List.flatMap_cons] at hrest
    obtain ⟨houtcome, hpacket, hreader⟩ := readRecord_record (hqs q List.mem_cons_self) h.ssrc hrest packet
    rw [RtpDumpReader.readPacket, if_pos h.read, hreader]
    refine ⟨houtcome, hpacket, ih ⟨h.read, h.ssrc, h.start, h.data, ?_⟩ fun q' hq' =>
      hqs q' (List.mem_cons_of_mem q hq')⟩
    show (r.stream.skip _).rest = _
    rw [MemoryStream.rest_skip, hrest, List.drop_left]

theorem replays_dumpFile (hd : ValidDump line header ps) : Replays (.new (dumpFile line header ps)) ps := by
  obtain ⟨r', hahead, hread⟩ := ahead_new hd
  have hreplays := hahead.replays hd.packets
  cases ps with
  | nil =>
    intro packet
    rw [hread]
    exact hreplays packet
  | cons p ps =>
    intro packet
    rw [hread]
    exact hreplays packet

/-- A packet that is recorded, at the time `now`. -/
structure Recorded where
  now : Uint32
  data : List Uint8
  elapsed : Uint32
  rtcp : Bool
  deriving DecidableEq, Repr

/-- What is read back: the length is zero for RTCP. -/
def Recorded.packet (p : Recorded) : RtpDumpPacket := ⟨p.elapsed, p.data, if p.rtcp then 0 else p.data.length⟩

def writePackets : RtpDumpWriter → List Recorded → Option RtpDumpWriter
  | w, [] => some w
  | w, p :: ps =>
    if (w.writePacket p.now p.data p.elapsed p.rtcp).1 = .success then
      writePackets (w.writePacket p.now p.data p.elapsed p.rtcp).2 ps
    else none

section Writing

variable {w w' : RtpDumpWriter}

theorem writeToStream_success {bytes : List Uint8} (h : (w.writeToStream bytes).1 = .success) :
    (w.writeToStream bytes).2.stream.data = w.stream.data ++ bytes ∧
      (w.writeToStream bytes).2.packetFilter = w.packetFilter ∧
      (w.writeToStream bytes).2.fileHeaderWritten = w.fileHeaderWritten := by
  refine ⟨?_, rfl, rfl⟩
  unfold RtpDumpWriter.writeToStream Sink.writeAll at h ⊢
  cases hroom : w.stream.room with
  | none => rfl
  | some room =>
    simp only [hroom] at h ⊢
    split_ifs at h ⊢
    rfl

theorem writeRecord_success {p : Recorded} (hfilter : w.packetFilter = pfAll) (hdata : p.data ≠ [])
    (h : (w.writeRecord p.data p.elapsed p.rtcp).1 = .success) :
    (w.writeRecord p.data p.elapsed p.rtcp).2.stream.data = w.stream.data ++ record p.packet ∧
      (w.writeRecord p.data p.elapsed p.rtcp).2.packetFilter = pfAll ∧
      (w.writeRecord p.data p.elapsed p.rtcp).2.fileHeaderWritten = w.fileHeaderWritten := by
  have hlen : w.filterPacket p.data p.rtcp = p.data.length := by
    rw [RtpDumpWriter.filterPacket, hfilter]
    cases p.rtcp <;> rfl
  have hne : ¬ p.data.length = 0 := fun h => hdata (List.length_eq_zero_iff.mp h)
  unfold RtpDumpWriter.writeRecord at h ⊢
  rw [hlen, if_neg hne, List.take_length] at h ⊢
  split_ifs at h ⊢ with hhead
  · exact absurd h hhead
  · obtain ⟨hdata₁, hfilter₁, hwritten₁⟩ := writeToStream_success (not_not.mp hhead)
    obtain ⟨hdata₂, hfilter₂, hwritten₂⟩ := writeToStream_success h
    refine ⟨?_, hfilter₂.trans (hfilter₁.trans hfilter), hwritten₂.trans hwritten₁⟩
    rw [hdata₂, hdata₁, RtpDumpWriter.packetHeader, hlen, List.append_assoc]
    rfl

theorem writePackets_written {ps : List Recorded} (hfilter : w.packetFilter = pfAll)
    (hwritten : w.fileHeaderWritten = true) (hps : ∀ p ∈ ps, p.data ≠ []) (h : writePackets w ps = some w') :
    w'.stream.data = w.stream.data ++ (ps.map Recorded.packet).flatMap record := by
  induction ps generalizing w with
  | nil =>
    cases h
    rw [List.map_nil, List.flatMap_nil, List.append_nil]
  | cons p ps ih =>
    have hdata := hps p List.mem_cons_self
    have hpacket : w.writePacket p.now p.data p.elapsed p.rtcp = w.writeRecord p.data p.elapsed p.rtcp := by
      rw [RtpDumpWriter.writePacket, if_neg hdata, if_pos hwritten]
    unfold writePackets at h
    rw [hpacket] at h
    split_ifs at h with hsuccess
    obtain ⟨hdata₁, hfilter₁, hwritten₁⟩ := writeRecord_success hfilter hdata hsuccess
    rw [ih hfilter₁ (hwritten₁.trans hwritten) (fun q hq => hps q (List.mem_cons_of_mem p hq)) h, hdata₁,
      List.append_assoc, List.map_cons, List.flatMap_cons]

theorem writePackets_new {room : Option ℕ} {p : Recorded} {ps : List Recorded}
    (hps : ∀ q ∈ p :: ps, q.data ≠ []) (h : writePackets (.new ⟨[], room⟩) (p :: ps) = some w') :
    w'.stream.data = kFirstLine ++ fileHeader p.now 0 0 ++ ((p :: ps).map Recorded.packet).flatMap record := by
  have hdata := hps p List.mem_cons_self
  generalize hw : RtpDumpWriter.new ⟨[], room⟩ = w at h
  have hnew : w.stream.data = [] ∧ w.packetFilter = pfAll ∧ w.fileHeaderWritten = false := by
    rw [← hw]
    exact ⟨rfl, rfl, rfl⟩
  obtain ⟨hempty, hfilter, hwritten⟩ := hnew
  unfold writePackets at h
  split_ifs at h with hsuccess
  unfold RtpDumpWriter.writePacket at h hsuccess
  rw [if_neg hdata, hwritten, if_neg Bool.false_ne_true] at h hsuccess
  unfold RtpDumpWriter.writeFileHeader at h hsuccess
  by_cases hfirst : (w.writeToStream kFirstLine).1 = .success
  swap
  · simp only [if_pos hfirst] at hsuccess
    exact absurd hsuccess hfirst
  simp only [if_neg (not_not.mpr hfirst)] at h hsuccess
  by_cases hheader : ((w.writeToStream kFirstLine).2.writeToStream (fileHeader p.now 0 0)).1 = .success
  swap
  · rw [if_pos hheader] at hsuccess
    exact absurd hsuccess hheader
  rw [if_neg (not_not.mpr hheader)] at h hsuccess
  obtain ⟨hdata₁, hfilter₁, -⟩ := writeToStream_success hfirst
  obtain ⟨hdata₂, hfilter₂, -⟩ := writeToStream_success hheader
  obtain ⟨hdata₃, hfilter₃, hwritten₃⟩ := writeRecord_success
    (w := { ((w.writeToStream kFirstLine).2.writeToStream (fileHeader p.now 0 0)).2 with
      fileHeaderWritten := true })
    (hfilter₂.trans (hfilter₁.trans hfilter)) hdata hsuccess
  rw [writePackets_written hfilter₃ hwritten₃ (fun q hq => hps q (List.mem_cons_of_mem p hq)) h, hdata₃,
    List.map_cons, List.flatMap_cons, ← List.append_assoc]
  refine congrArg (fun l => l ++ record p.packet ++ (ps.map Recorded.packet).flatMap record) ?_
  rw [hdata₂, hdata₁, hempty, List.nil_append]

theorem replays_written {room : Option ℕ} {ps : List Recorded}
    (hps : ∀ p ∈ ps, 1 ≤ p.data.length ∧ p.data.length ≤ 65527)
    (h : writePackets (.new ⟨[], room⟩) ps = some w') :
    Replays (.new w'.stream.data) (ps.map Recorded.packet) := by
  cases ps with
  | nil =>
    cases h
    exact fun packet => rfl
  | cons p ps =>
    have hne : ∀ q ∈ p :: ps, q.data ≠ [] := fun q hq => List.length_pos_iff.mp (hps q hq).1
    have hrecordable : ∀ q ∈ (p :: ps).map Recorded.packet, Recordable q := by
      intro q hq
      obtain ⟨q', hq', rfl⟩ := List.mem_map.mp hq
      have hlen := (hps q' hq').2
      refine ⟨hlen, ?_⟩
      show (if q'.rtcp then 0 else q'.data.length) < 2 ^ 16
      split_ifs <;> omega
    have hline : kFirstLine = text "#!rtpplay1.0 0.0.0.0/0" ++ [newline] := rfl
    have hfile : w'.stream.data = dumpFile (text "#!rtpplay1.0 0.0.0.0/0") (fileHeader p.now 0 0)
        ((p :: ps).map Recorded.packet) := by
      rw [writePackets_new hne h, hline, dumpFile, List.append_assoc, List.append_assoc]
      rfl
    rw [hfile]
    have hheader : (fileHeader p.now 0 0).length = kFileHeaderLength := by
      simp only [fileHeader, List.length_append, length_wordBytes]
    exact replays_dumpFile ⟨by decide, by decide, hheader, hrecordable⟩

end Writing

/-! ## Runs -/

/-- What a client does with a reader. -/
inductive ReaderOp where
  | setSsrc (ssrc : Uint32)
  | readPacket (packet : RtpDumpPacket)

def readerStep (r : RtpDumpReader) : ReaderOp → RtpDumpReader
  | .setSsrc ssrc => r.setSsrc ssrc
  | .readPacket packet => (r.readPacket packet).reader

/-- Every `ReadPacket` is exact. -/
def ExactCall (r : RtpDumpReader) : ReaderOp → Prop
  | .setSsrc _ => True
  | .readPacket packet => Exact r packet

/-- No `ReadPacket` comes to a short record. -/
def NotShort (r : RtpDumpReader) : ReaderOp → Prop
  | .setSsrc _ => True
  | .readPacket _ => ¬ ShortRecord r

theorem inside_readerStep {op : ReaderOp} (hr : r.stream.position ≤ r.stream.data.length) (h : ExactCall r op) :
    (readerStep r op).stream.position ≤ (readerStep r op).stream.data.length := by
  cases op with
  | setSsrc ssrc => exact hr
  | readPacket packet => exact h.data.symm ▸ h.inside

/-- **RTP dumps read back what was written**, and any file is read exactly as long as no call comes
to a short record. -/
theorem dumps_sound (room : Option ℕ) (ps : List Recorded) (file : List Uint8) (ops : List ReaderOp) :
    ((∀ p ∈ ps, 1 ≤ p.data.length ∧ p.data.length ≤ 65527) →
      ∀ w, writePackets (.new ⟨[], room⟩) ps = some w →
        Replays (.new w.stream.data) (ps.map Recorded.packet)) ∧
    (Guarded readerStep ExactCall (.new file) ops ↔ Guarded readerStep NotShort (.new file) ops) := by
  refine ⟨fun hps w h => replays_written hps h, ?_⟩
  refine guarded_congr (I := fun r => r.stream.position ≤ r.stream.data.length) (fun r op hr => ?_)
    (fun r op hr hop => inside_readerStep hr hop) (Nat.zero_le _)
  cases op with
  | setSsrc ssrc => exact Iff.rfl
  | readPacket packet => exact exact_iff hr packet

def exampleRecorded : List Recorded :=
  [⟨1000, [0x80, 0, 0, 1, 0, 0, 0, 0, 0, 0, 0, 7], 20, false⟩, ⟨1000, [0x80, 200, 0, 0], 40, true⟩]

/-- They are written and read back. -/
theorem dumps_sound_example : ∃ w, writePackets (.new ⟨[], some 1000⟩) exampleRecorded = some w ∧
    Replays (.new w.stream.data) (exampleRecorded.map Recorded.packet) := by
  obtain ⟨w, hw⟩ := Option.isSome_iff_exists.mp
    (by decide : (writePackets (.new ⟨[], some 1000⟩) exampleRecorded).isSome = true)
  exact ⟨w, hw, (dumps_sound (some 1000) exampleRecorded [] []).1 (by decide) w hw⟩

def exampleShortRecord : List Uint8 := kFirstLine ++ fileHeader 0 0 0 ++ List.replicate 8 0

/-- **A record of length zero**: the size of the packet wraps, and `resize` throws. -/
theorem short_record :
    ((RtpDumpReader.new exampleShortRecord).readPacket ⟨0, [], 0⟩).resized = some (0, 2 ^ 64 - 8) ∧
      ¬ Exact (.new exampleShortRecord) ⟨0, [], 0⟩ := by
  refine ⟨by decide +kernel, fun h => ?_⟩
  have hthrown : ((RtpDumpReader.new exampleShortRecord).readPacket ⟨0, [], 0⟩).outcome = .lengthError := by
    decide +kernel
  have hreturns := h.returns
  rw [hthrown] at hreturns
  rcases hreturns with h | h | h <;> cases h

end Libjingle.RtpDump
