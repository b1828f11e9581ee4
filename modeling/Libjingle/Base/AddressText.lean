import Libjingle.Base.HostAddress
import Libjingle.Base.Numerals
import Libjingle.Http.Chunks

/-!
# Addresses as text (`base/socketaddress.cc`)

Main result: **`text_iff`**.
-/

variable {ch : Uint8} {s : List Uint8} {a : HostAddress}

namespace Libjingle

open Http (isspace hexDigit digitsValue formatHex hexChar)

/-! ## The functions -/

/-- `std::string::find`, from a position on. -/
def find (ch : Uint8) (str : List Uint8) (pos : ℕ) : Option ℕ := ((str.drop pos).idxOf? ch).map (pos + ·)

/-- The position of the last such character. -/
def rfind (ch : Uint8) (str : List Uint8) : Option ℕ := (str.reverse.idxOf? ch).map (str.length - 1 - ·)

/-- `strtoul` to the base 10, as an `int`. -/
def portNumber (str : List Uint8) : BitVec 32 := BitVec.ofNat 32 (((scanNumber 10 str).map Prod.fst).getD 0)

namespace HostAddress

def hostAsURIString (net : Inet) (a : HostAddress) : List Uint8 :=
  if a.literal = false ∧ a.hostname ≠ [] then a.hostname
  else match a.ip with
    | .v6 addr => text "[" ++ (IPAddress.v6 addr).toString net ++ text "]"
    | ip => ip.toString net

/-- `SocketAddress::ToString`: the host, a colon and the port. -/
def toString (net : Inet) (a : HostAddress) : List Uint8 :=
  hostAsURIString net a ++ text ":" ++ formatNumber 10 1 a.port.toNat

/-- `FromString`; nothing where `at` throws. -/
def fromString (net : Inet) (a : HostAddress) (str : List Uint8) : Option (Bool × HostAddress) :=
  match str with
  | [] => none
  | first :: _ =>
    if first = 0x5B then
      match rfind 0x5D str with
      -- Without a closing bracket, nothing is set.
      | none => some (true, a)
      | some closebracket =>
        match find 0x3A str closebracket with
        | none => some (false, a)
        | some colon =>
          some (true, (a.setPort (portNumber (str.drop (colon + 1)))).setHostname net
            ((str.drop 1).take (closebracket - 1)))
    else
      match find 0x3A str 0 with
      | none => some (false, a)
      | some pos => some (true, (a.setPort (portNumber (str.drop (pos + 1)))).setHostname net (str.take pos))

end HostAddress

/-! ## Positions -/

theorem find_append (h : ch ∉ s) (rest : List Uint8) : find ch (s ++ ch :: rest) 0 = some s.length := by
  have hfound : (s ++ ch :: rest).idxOf? ch = some s.length := by
    rw [List.idxOf?_eq_some_iff]
    refine ⟨by simp, by simp, fun j hj => ?_⟩
    rw [List.getElem_append_left hj]
    exact fun heq => h (heq ▸ List.getElem_mem hj)
  rw [find, List.drop_zero, hfound, Option.map_some, Nat.zero_add]

theorem find_append_right (ch : Uint8) (s t : List Uint8) :
    find ch (s ++ t) s.length = (find ch t 0).map (s.length + ·) := by
  rw [find, find, List.drop_left, List.drop_zero, Option.map_map]
  congr 1
  funext n
  exact congrArg (s.length + ·) (Nat.zero_add n).symm

theorem rfind_append {t : List Uint8} (h : ch ∉ t) (s : List Uint8) : rfind ch (s ++ ch :: t) = some s.length := by
  have hfound : (s ++ ch :: t).reverse.idxOf? ch = some t.length := by
    have := find_append (s := t.reverse) (by simpa using h) s.reverse
    rw [find, List.drop_zero, Option.map_eq_some_iff] at this
    obtain ⟨n, hn, hlen⟩ := this
    rw [List.reverse_append, List.reverse_cons, List.append_assoc, List.singleton_append, hn, ← List.length_reverse,
      ← hlen, Nat.zero_add]
  rw [rfind, hfound, Option.map_some, List.length_append, List.length_cons]
  congr 1
  omega

theorem rfind_eq_none : rfind ch s = none ↔ ch ∉ s := by
  rw [rfind, Option.map_eq_none_iff, List.idxOf?_eq_none_iff, List.mem_reverse]

/-! ## The platform -/

namespace Inet

/-- What is relied on: `inet_pton` takes back what `inet_ntop` writes, and what their texts consist
of. -/
structure Lawful (net : Inet) : Prop where
  pton4_ntop4 : ∀ addr, net.pton4 (net.ntop4 addr) = some addr
  pton6_ntop6 : ∀ addr, net.pton6 (net.ntop6 addr) = some addr
  pton4_text : ∀ s addr, net.pton4 s = some addr → s ≠ [] ∧ ∀ ch ∈ s, (digitOf 10 ch).isSome ∨ ch = 0x2E
  ntop6_text : ∀ addr, 0x3A ∈ net.ntop6 addr ∧
    ∀ ch ∈ net.ntop6 addr, (hexDigit ch).isSome ∨ ch = 0x2E ∨ ch = 0x3A

end Inet

set_option maxRecDepth 4000 in
theorem not_delimiter4 (h : (digitOf 10 ch).isSome ∨ ch = 0x2E) : ch ∉ [0, 0x3A, 0x5B, 0x5D] := by
  have hall : ∀ n : Fin 256, (digitOf 10 (BitVec.ofFin n)).isSome ∨ (BitVec.ofFin n : Uint8) = 0x2E →
      (BitVec.ofFin n : Uint8) ∉ [0, 0x3A, 0x5B, 0x5D] := by decide
  exact hall ch.toFin h

set_option maxRecDepth 4000 in
theorem not_delimiter6 (h : (hexDigit ch).isSome ∨ ch = 0x2E ∨ ch = 0x3A) : ch ∉ [0, 0x5B, 0x5D] := by
  have hall : ∀ n : Fin 256, (hexDigit (BitVec.ofFin n)).isSome ∨ (BitVec.ofFin n : Uint8) = 0x2E ∨
      (BitVec.ofFin n : Uint8) = 0x3A → (BitVec.ofFin n : Uint8) ∉ [0, 0x5B, 0x5D] := by decide
  exact hall ch.toFin h

theorem cString_eq_self (h : (0 : Uint8) ∉ s) : cString s = s :=
  List.takeWhile_eq_self_iff.mpr fun _ hch => decide_eq_true fun hzero => h (hzero ▸ hch)

namespace Inet

variable {net : Inet}

theorem Lawful.notMem_ntop4 (h : net.Lawful) (addr : Uint32) (hch : ch ∈ [0, 0x3A, 0x5B, 0x5D]) :
    ch ∉ net.ntop4 addr :=
  fun hmem => not_delimiter4 ((h.pton4_text _ _ (h.pton4_ntop4 addr)).2 ch hmem) hch

theorem Lawful.notMem_ntop6 (h : net.Lawful) (addr : BitVec 128) (hch : ch ∈ [0, 0x5B, 0x5D]) : ch ∉ net.ntop6 addr :=
  fun hmem => not_delimiter6 ((h.ntop6_text addr).2 ch hmem) hch

theorem Lawful.ipFromString_ntop4 (h : net.Lawful) (addr : Uint32) :
    ipFromString net (net.ntop4 addr) = some (.v4 addr) := by
  rw [ipFromString, cString_eq_self (h.notMem_ntop4 addr (by decide)), h.pton4_ntop4]

theorem Lawful.ipFromString_ntop6 (h : net.Lawful) (addr : BitVec 128) :
    ipFromString net (net.ntop6 addr) = some (.v6 addr) := by
  have hnone : net.pton4 (net.ntop6 addr) = none := by
    refine Option.eq_none_iff_forall_ne_some.mpr fun v hv => ?_
    exact not_delimiter4 ((h.pton4_text _ _ hv).2 _ (h.ntop6_text addr).1) (by decide)
  rw [ipFromString, cString_eq_self (h.notMem_ntop6 addr (by decide)), hnone, h.pton6_ntop6]
  rfl

end Inet

namespace HostAddress

variable {net : Inet}

/-! ## The two forms of text -/

theorem portNumber_formatNumber (port : Uint16) : (portNumber (formatNumber 10 1 port.toNat)).setWidth 16 = port := by
  have hport := port.isLt
  have hscan := @scanNumber_formatNumber 10 (by decide) (by decide) 1 port.toNat (by decide) (by omega) []
    (fun ch hch => by cases hch)
  rw [List.append_nil] at hscan
  rw [portNumber, hscan]
  apply BitVec.eq_of_toNat_eq
  rw [BitVec.toNat_setWidth, Option.map_some, Option.getD_some, BitVec.toNat_ofNat]
  omega

theorem notMem_formatNumber (n : ℕ) : (0x5D : Uint8) ∉ formatNumber 10 1 n := fun h =>
  absurd (isSome_digitOf (by decide) (le_refl 10) h) (by decide)

/-- A host without colon and bracket, and a port behind it. -/
theorem fromString_plain {host : List Uint8} (hcolon : 0x3A ∉ host) (hopen : 0x5B ∉ host) (a : HostAddress)
    (port : List Uint8) : fromString net a (host ++ 0x3A :: port) =
      some (true, (a.setPort (portNumber port)).setHostname net host) := by
  have hfind := find_append hcolon port
  have hfirst : ∃ first rest, host ++ 0x3A :: port = first :: rest ∧ first ≠ 0x5B := by
    cases host with
    | nil => exact ⟨_, _, rfl, by decide⟩
    | cons first rest => exact ⟨_, _, rfl, fun h => hopen (h ▸ List.mem_cons_self)⟩
  have htake : (host ++ 0x3A :: port).take host.length = host := List.take_left
  have hdrop : (host ++ 0x3A :: port).drop (host.length + 1) = port := by
    rw [← List.drop_drop, List.drop_left]
    rfl
  obtain ⟨first, rest, hcons, hne⟩ := hfirst
  rw [hcons] at hfind htake hdrop ⊢
  rw [fromString, if_neg hne, hfind]
  simp only [htake, hdrop]

/-- A host between brackets, and a port behind it. -/
theorem fromString_bracket (host : List Uint8) {port : List Uint8} (hclose : 0x5D ∉ port) (a : HostAddress) :
    fromString net a (0x5B :: (host ++ 0x5D :: 0x3A :: port)) =
      some (true, (a.setPort (portNumber port)).setHostname net host) := by
  have hrfind : rfind 0x5D (0x5B :: (host ++ 0x5D :: 0x3A :: port)) = some (host.length + 1) := by
    rw [← List.cons_append, rfind_append, List.length_cons]
    rw [List.mem_cons, not_or]
    exact ⟨by decide, hclose⟩
  have hfind : find 0x3A (0x5B :: (host ++ 0x5D :: 0x3A :: port)) (host.length + 1) =
      some (host.length + 1 + 1) := by
    rw [← List.cons_append, ← List.length_cons, find_append_right]
    rfl
  have htake : ((0x5B :: (host ++ 0x5D :: 0x3A :: port)).drop 1).take (host.length + 1 - 1) = host :=
    List.take_left
  have hdrop : (0x5B :: (host ++ 0x5D :: 0x3A :: port)).drop (host.length + 1 + 1 + 1) = port := by
    rw [← List.cons_append, show host.length + 1 + 1 + 1 = (0x5B :: host).length + 2 from rfl, ← List.drop_drop,
      List.drop_left]
    rfl
  rw [fromString, if_pos rfl, hrfind]
  simp only [hfind, htake, hdrop]

/-! ## Round trips -/

def ResolvedIP (a : HostAddress) : Prop := a.ip ≠ .unspec ∧ a.hostname = []

def PlainName (a : HostAddress) : Prop := a.isUnresolvedIP = true ∧ 0x3A ∉ a.hostname ∧ 0x5B ∉ a.hostname

def RoundTrips (net : Inet) (a b : HostAddress) : Prop :=
  ∃ c, fromString net b (a.toString net) = some (true, c) ∧ c.equal a.toSocketAddress = true

def Independent (net : Inet) (s : List Uint8) : Prop :=
  ∀ a b a' b', fromString net a s = some (true, a') → fromString net b s = some (true, b') → a' = b'

theorem equal_literal {b : HostAddress} {host port : List Uint8} (hip : ipFromString net host = some a.ip)
    (hhost : host ≠ []) (hname : a.hostname = []) (hport : (portNumber port).setWidth 16 = a.port) :
    ((b.setPort (portNumber port)).setHostname net host).equal a.toSocketAddress = true ↔ ¬ipIsAny a.ip := by
  have hne : host ≠ a.hostname := hname ▸ hhost
  simp only [setHostname, hip, setPort, SocketAddress.equal, SocketAddress.equalIPs, SocketAddress.equalPorts, hport,
    hne, decide_true, decide_false, Bool.or_false, Bool.true_and, Bool.and_true, Bool.not_eq_true', Bool.not_eq_true]

theorem resolved_roundTrips_iff (h : net.Lawful) (ha : ResolvedIP a) (b : HostAddress) :
    RoundTrips net a b ↔ ¬ipIsAny a.ip := by
  obtain ⟨hip, hname⟩ := ha
  have hport := portNumber_formatNumber a.port
  have hread {host : List Uint8}
      (hfrom : fromString net b (a.toString net) =
        some (true, (b.setPort (portNumber (formatNumber 10 1 a.port.toNat))).setHostname net host))
      (hhost : ipFromString net host = some a.ip) (hne : host ≠ []) : RoundTrips net a b ↔ ¬ipIsAny a.ip := by
    rw [← equal_literal (b := b) hhost hne hname hport]
    constructor
    · rintro ⟨c, hc, hequal⟩
      rw [hfrom] at hc
      obtain rfl := (Prod.mk.inj (Option.some.inj hc)).2
      exact hequal
    · exact fun hequal => ⟨_, hfrom, hequal⟩
  have htext : hostAsURIString net a = match a.ip with
      | .v6 addr => text "[" ++ (IPAddress.v6 addr).toString net ++ text "]"
      | ip => ip.toString net := if_neg fun hn => hn.2 hname
  cases hcase : a.ip with
  | unspec => exact absurd hcase hip
  | v4 addr =>
    rw [hcase] at htext hread
    refine hread ?_ (h.ipFromString_ntop4 addr) (h.pton4_text _ _ (h.pton4_ntop4 addr)).1
    rw [toString, htext, List.append_assoc]
    exact fromString_plain (h.notMem_ntop4 addr (by decide)) (h.notMem_ntop4 addr (by decide)) b _
  | v6 addr =>
    rw [hcase] at htext hread
    refine hread ?_ (h.ipFromString_ntop6 addr) (List.ne_nil_of_mem (h.ntop6_text addr).1)
    rw [toString, htext]
    simp only [List.append_assoc]
    exact fromString_bracket _ (notMem_formatNumber _) b

theorem name_roundTrips (hbuilt : Built net a) (ha : PlainName a) (b : HostAddress) : RoundTrips net a b := by
  obtain ⟨hunresolved, hcolon, hopen⟩ := ha
  simp only [isUnresolvedIP, Bool.and_eq_true, decide_eq_true_eq, Bool.not_eq_true'] at hunresolved
  obtain ⟨⟨hip, hliteral⟩, hne⟩ := hunresolved
  have hfrom : fromString net b (a.toString net) =
      some (true, (b.setPort (portNumber (formatNumber 10 1 a.port.toNat))).setHostname net a.hostname) := by
    rw [toString, hostAsURIString, if_pos ⟨hliteral, hne⟩, List.append_assoc]
    exact fromString_plain hcolon hopen b _
  refine ⟨_, hfrom, ?_⟩
  simp only [setHostname, hbuilt.hostname hliteral hne, setPort, SocketAddress.equal, SocketAddress.equalIPs,
    SocketAddress.equalPorts, portNumber_formatNumber, hip, ipIsAny, decide_true, Bool.not_false, Bool.true_or,
    Bool.and_true]

theorem setHostname_setPort (a b : HostAddress) (port : BitVec 32) (host : List Uint8) :
    (a.setPort port).setHostname net host = (b.setPort port).setHostname net host := by
  unfold setHostname setPort
  split <;> rfl

theorem independent_iff : Independent net s ↔ ¬(s.head? = some 0x5B ∧ 0x5D ∉ s) := by
  match s with
  | [] =>
    refine ⟨fun _ h => ?_, fun _ a b a' b' ha => ?_⟩
    · cases h.1
    · cases ha
  | first :: rest =>
    have hset {a b a' b' : HostAddress} {port : BitVec 32} {host : List Uint8}
        (ha : some (true, (a.setPort port).setHostname net host) = some (true, a'))
        (hb : some (true, (b.setPort port).setHostname net host) = some (true, b')) : a' = b' := by
      obtain rfl := (Prod.mk.inj (Option.some.inj ha)).2
      obtain rfl := (Prod.mk.inj (Option.some.inj hb)).2
      exact setHostname_setPort a b port host
    constructor
    · rintro h ⟨hopen, hclose⟩
      obtain rfl : first = 0x5B := Option.some.inj hopen
      have hsame (a : HostAddress) : fromString net a (0x5B :: rest) = some (true, a) := by
        rw [fromString, if_pos rfl, rfind_eq_none.mpr hclose]
      exact absurd (h clear (clear.setPort 1) _ _ (hsame _) (hsame _)) (by decide)
    · intro h a b a' b' ha hb
      rw [fromString] at ha hb
      by_cases hopen : first = 0x5B
      · rw [if_pos hopen] at ha hb
        cases hclose : rfind 0x5D (first :: rest) with
        | none => exact absurd ⟨congrArg some hopen, rfind_eq_none.mp hclose⟩ h
        | some closebracket =>
          rw [hclose] at ha hb
          cases hcolon : find 0x3A (first :: rest) closebracket with
          | none =>
            simp only [hcolon] at ha
            cases ha
          | some colon =>
            simp only [hcolon] at ha hb
            exact hset ha hb
      · rw [if_neg hopen] at ha hb
        cases hcolon : find 0x3A (first :: rest) 0 with
        | none =>
          rw [hcolon] at ha
          cases ha
        | some pos =>
          rw [hcolon] at ha hb
          exact hset ha hb

/-- **Addresses as text** are read back, but for 0.0.0.0 and ::, and independently, but for an open
bracket. -/
theorem text_iff (h : net.Lawful) {a : HostAddress} (hbuilt : Built net a) (ha : ResolvedIP a ∨ PlainName a)
    (b : HostAddress) (s : List Uint8) :
    (RoundTrips net a b ↔ ¬ipIsAny a.ip) ∧ (Independent net s ↔ ¬(s.head? = some 0x5B ∧ 0x5D ∉ s)) := by
  refine ⟨?_, independent_iff⟩
  rcases ha with hresolved | hname
  · exact resolved_roundTrips_iff h hresolved b
  · have hip : a.ip = .unspec := by
      have := hname.1
      simp only [isUnresolvedIP, Bool.and_eq_true, decide_eq_true_eq] at this
      exact this.1.1
    refine ⟨fun _ => ?_, fun _ => name_roundTrips hbuilt hname b⟩
    rw [hip]
    exact Bool.false_ne_true

end HostAddress

/-! ## A platform -/

namespace Inet

def octets : ℕ → ℕ → List Uint8
  | 0, n => formatNumber 10 1 n
  | k + 1, n => octets k (n / 256) ++ 0x2E :: formatNumber 10 1 (n % 256)

def octetsValue (s : List Uint8) : ℕ :=
  (s.splitOn 0x2E).foldl (fun v octet => v * 256 + digitsValue 10 (octet.filterMap (digitOf 10))) 0

def groups : ℕ → ℕ → List Uint8
  | 0, n => formatHex 4 n
  | k + 1, n => groups k (n / 65536) ++ 0x3A :: formatHex 4 (n % 65536)

def groupsValue (s : List Uint8) : ℕ := digitsValue 16 (s.filterMap hexDigit)

def dotted : Inet where
  pton4 s :=
    let addr := BitVec.ofNat 32 (octetsValue s)
    if octets 3 addr.toNat = s then some addr else none
  pton6 s :=
    let addr := BitVec.ofNat 128 (groupsValue s)
    if groups 7 addr.toNat = s then some addr else none
  ntop4 addr := octets 3 addr.toNat
  ntop6 addr := groups 7 addr.toNat

theorem octetsValue_octets (k n : ℕ) : octetsValue (octets k n) = n := by
  have hdot (m : ℕ) : (0x2E : Uint8) ∉ formatNumber 10 1 m := fun h =>
    absurd (isSome_digitOf (by decide) (le_refl 10) h) (by decide)
  induction k generalizing n with
  | zero =>
    rw [octets, octetsValue, List.splitOn_eq_singleton (hdot n), List.foldl_cons, List.foldl_nil,
      digitsValue_formatNumber (by decide) (le_refl 10), Nat.zero_mul, Nat.zero_add]
  | succ k ih =>
    have hhigh := ih (n / 256)
    rw [octetsValue] at hhigh ⊢
    rw [octets, List.splitOn_append_cons_self, List.splitOn_eq_singleton (hdot _), List.foldl_append, hhigh,
      List.foldl_cons, List.foldl_nil, digitsValue_formatNumber (by decide) (le_refl 10)]
    exact Nat.div_add_mod' n 256

theorem octets_text (k n : ℕ) : octets k n ≠ [] ∧ ∀ ch ∈ octets k n, (digitOf 10 ch).isSome ∨ ch = 0x2E := by
  induction k generalizing n with
  | zero => exact ⟨formatNumber_ne_nil one_pos, fun ch h => .inl (isSome_digitOf (by decide) (le_refl 10) h)⟩
  | succ k ih =>
    refine ⟨by rw [octets]; simp, fun ch h => ?_⟩
    rw [octets, List.mem_append, List.mem_cons] at h
    rcases h with h | h | h
    · exact (ih _).2 ch h
    · exact .inr h
    · exact .inl (isSome_digitOf (by decide) (le_refl 10) h)

theorem hexDigit_of_mem {digits n : ℕ} (h : ch ∈ formatHex digits n) : (hexDigit ch).isSome := by
  obtain ⟨d, rfl⟩ := Http.mem_formatHex h
  rw [Http.hexDigit_hexChar]
  rfl

theorem length_hexDigits (digits n : ℕ) : ((formatHex digits n).filterMap hexDigit).length = digits := by
  rw [List.length_filterMap_eq_countP, List.countP_eq_length.mpr fun ch h => hexDigit_of_mem h,
    Http.length_formatHex]

theorem digitsValue_append (base : ℕ) (ds es : List ℕ) :
    digitsValue base (ds ++ es) = digitsValue base ds * base ^ es.length + digitsValue base es := by
  induction es using List.reverseRecOn with
  | nil => simp [digitsValue]
  | append_singleton es d ih =>
    rw [digitsValue] at ih ⊢
    rw [← List.append_assoc, List.foldl_append, ih]
    simp only [digitsValue, List.foldl_append, List.foldl_cons, List.foldl_nil, List.length_append,
      List.length_singleton, Nat.pow_succ]
    ring

theorem groupsValue_groups {k n : ℕ} (h : n < 65536 ^ (k + 1)) : groupsValue (groups k n) = n := by
  induction k generalizing n with
  | zero => exact Http.digitsValue_formatHex h
  | succ k ih =>
    have hhigh := @ih (n / 65536) (Nat.div_lt_of_lt_mul (by rwa [Nat.pow_succ, Nat.mul_comm] at h))
    have hlow := @Http.digitsValue_formatHex 4 (n % 65536) (Nat.mod_lt _ (by decide))
    rw [groupsValue] at hhigh ⊢
    rw [groups, List.filterMap_append, List.filterMap_cons_none (by decide), digitsValue_append, hhigh, hlow,
      length_hexDigits]
    exact Nat.div_add_mod' n 65536

theorem groups_text (k n : ℕ) : ∀ ch ∈ groups k n, (hexDigit ch).isSome ∨ ch = 0x2E ∨ ch = 0x3A := by
  induction k generalizing n with
  | zero => exact fun ch h => .inl (hexDigit_of_mem h)
  | succ k ih =>
    intro ch h
    rw [groups, List.mem_append, List.mem_cons] at h
    rcases h with h | h | h
    · exact ih _ ch h
    · exact .inr (.inr h)
    · exact .inl (hexDigit_of_mem h)

theorem dotted_lawful : dotted.Lawful where
  pton4_ntop4 addr := by
    have hvalue : BitVec.ofNat 32 (octetsValue (octets 3 addr.toNat)) = addr := by
      rw [octetsValue_octets, BitVec.ofNat_toNat, BitVec.setWidth_eq]
    simp only [dotted, hvalue, if_true]
  pton6_ntop6 addr := by
    have hvalue : BitVec.ofNat 128 (groupsValue (groups 7 addr.toNat)) = addr := by
      have hlt := addr.isLt
      rw [groupsValue_groups (by omega), BitVec.ofNat_toNat, BitVec.setWidth_eq]
    simp only [dotted, hvalue, if_true]
  pton4_text s addr h := by
    simp only [dotted] at h
    split at h
    · rename_i hs
      exact hs ▸ octets_text 3 _
    · cases h
  ntop6_text addr := by
    refine ⟨?_, groups_text 7 _⟩
    simp only [dotted]
    rw [groups]
    exact List.mem_append_right _ List.mem_cons_self

end Inet

namespace HostAddress

/-- 0.0.0.0 is not read back, and what `[1` is read as depends on what was there. -/
theorem any_not_read_back :
    ∃ net : Inet, net.Lawful ∧ (∃ a, Built net a ∧ ResolvedIP a ∧ ¬RoundTrips net a clear) ∧
      ¬Independent net (text "[1") := by
  refine ⟨Inet.dotted, Inet.dotted_lawful, ⟨clear.setIP (.v4 0), .setIP _ .clear, ⟨by decide, rfl⟩, ?_⟩, ?_⟩
  · rw [resolved_roundTrips_iff Inet.dotted_lawful ⟨by decide, rfl⟩]
    decide
  · rw [independent_iff]
    decide

/-- 1.2.3.4:80 is read back, and so is the text `host:80` from anything. -/
theorem text_iff_dotted :
    let a := (clear.setIP (.v4 0x01020304)).setPort 80
    (RoundTrips Inet.dotted a clear ↔ ¬ipIsAny a.ip) ∧
      (Independent Inet.dotted (text "host:80") ↔ ¬((text "host:80").head? = some 0x5B ∧ 0x5D ∉ text "host:80")) :=
  text_iff Inet.dotted_lawful (.setPort _ (.setIP _ .clear)) (.inl ⟨by decide, rfl⟩) clear (text "host:80")

end HostAddress

end Libjingle
