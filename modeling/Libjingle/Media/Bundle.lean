import Libjingle.Media.Description

/-!
# Bundles (`session/media/mediasession.cc`)

Main result: **`bundled_iff`**.
-/

namespace Libjingle.Media

open Srtp (CryptoParams)

/-! ## The functions -/

/-- `UpdateTransportInfoForBundle`: all get the transport parameters of the first. -/
def updateTransportInfoForBundle (bundleGroup : ContentGroup) (sdesc : SessionDescription) :
    Bool × SessionDescription :=
  match bundleGroup.contentNames with
  | [] => (false, sdesc)
  | selected :: _ =>
    match sdesc.getTransportInfoByName selected with
    | none => (false, sdesc)
    | some info =>
      (true, { sdesc with
        transportInfos := sdesc.transportInfos.map fun it =>
          if bundleGroup.contentNames.contains it.contentName && it.contentName ≠ selected then
            { it with
              description := { it.description with
                iceUfrag := info.description.iceUfrag
                icePwd := info.description.icePwd } }
          else it })

def getCryptosByName (sdesc : SessionDescription) (name : List Uint8) : Option (List CryptoParams) :=
  match sdesc.getContentByName name with
  | none => none
  | some content =>
    if !isMediaContent content then none else content.description.map fun desc => desc.media.cryptos

def pruneCryptos (source target : List CryptoParams) : List CryptoParams :=
  target.filter fun crypto => source.any fun it => it.cipherSuite = crypto.cipherSuite

def isRtpProtocol (protocol : List Uint8) : Bool := protocol = [] || kMediaProtocolRtpPrefix.isPrefixOf protocol

/-- `IsRtpContent`. -/
def isRtpContent (sdesc : SessionDescription) (name : List Uint8) : Bool :=
  match sdesc.getContentByName name with
  | none => false
  | some content => isMediaContent content && content.description.any fun desc => isRtpProtocol desc.media.protocol

/-- How the first loop of `UpdateCryptoParamsForBundle` ends. -/
inductive Common where
  | crash
  | returned (result : Bool)
  | done (needed : Bool) (cryptos : List CryptoParams)

def commonCryptos (sdesc : SessionDescription) :
    (first : Bool) → (names : List (List Uint8)) → (needed : Bool) → (common : List CryptoParams) → Common
  | _, [], needed, common => .done needed common
  | first, name :: names, needed, common =>
    if !isRtpContent sdesc name then commonCryptos sdesc false names needed common
    else
      match sdesc.getTransportInfoByName name with
      | none => .crash
      | some info =>
        let needed := needed || !secure info.description
        match getCryptosByName sdesc name with
        | none => .returned false
        | some cryptos =>
          if first then
            if cryptos = [] then .returned true else commonCryptos sdesc false names needed cryptos
          else commonCryptos sdesc false names needed (pruneCryptos cryptos common)

def setCryptos (name : List Uint8) (cryptos : List CryptoParams) : List ContentInfo → List ContentInfo
  | [] => []
  | content :: contents =>
    if content.name = name then
      { content with description := content.description.map (ContentDescription.setCryptos cryptos) } :: contents
    else content :: setCryptos name cryptos contents

/-- The second loop of `UpdateCryptoParamsForBundle`. -/
def setCommonCryptos (common : List CryptoParams) :
    List (List Uint8) → SessionDescription → Bool × SessionDescription
  | [], sdesc => (true, sdesc)
  | name :: names, sdesc =>
    if !isRtpContent sdesc name then setCommonCryptos common names sdesc
    else
      match sdesc.getContentByName name with
      | none => setCommonCryptos common names sdesc
      | some content =>
        if !isMediaContent content then setCommonCryptos common names sdesc
        else if content.description.isNone then (false, sdesc)
        else setCommonCryptos common names { sdesc with contents := setCryptos name common sdesc.contents }

/-- `UpdateCryptoParamsForBundle`: all get the common cryptos. -/
def updateCryptoParamsForBundle (bundleGroup : ContentGroup) (sdesc : SessionDescription) :
    Option (Bool × SessionDescription) :=
  if bundleGroup.contentNames = [] then some (false, sdesc)
  else
    match commonCryptos sdesc true bundleGroup.contentNames false [] with
    | .crash => none
    | .returned result => some (result, sdesc)
    | .done needed common =>
      if common = [] ∧ needed then some (false, sdesc)
      else some (setCommonCryptos common bundleGroup.contentNames sdesc)

/-! ## The common parameters -/

section Common

variable {sdesc : SessionDescription} {name : List Uint8} {names : List (List Uint8)} {needed : Bool}
  {common : List CryptoParams}

def cryptosOf (sdesc : SessionDescription) (name : List Uint8) : List CryptoParams :=
  (getCryptosByName sdesc name).getD []

def HasSuite (sdesc : SessionDescription) (name suite : List Uint8) : Prop :=
  ∃ crypto ∈ cryptosOf sdesc name, crypto.cipherSuite = suite

/-- The names of RTP contents among these. -/
def rtpNames (sdesc : SessionDescription) (names : List (List Uint8)) : List (List Uint8) :=
  names.filter (isRtpContent sdesc)

def insecure (sdesc : SessionDescription) (name : List Uint8) : Bool :=
  (sdesc.getTransportInfoByName name).any fun info => !secure info.description

theorem exists_content (h : isRtpContent sdesc name = true) : ∃ content desc,
    sdesc.getContentByName name = some content ∧ isMediaContent content = true ∧ content.description = some desc := by
  unfold isRtpContent at h
  split at h
  · cases h
  · rename_i content hcontent
    obtain ⟨hmedia, hdesc⟩ := Bool.and_eq_true_iff.mp h
    cases hcase : content.description with
    | none => simp [hcase] at hdesc
    | some desc => exact ⟨content, desc, hcontent, hmedia, hcase⟩

theorem getCryptosByName_isSome (h : isRtpContent sdesc name = true) :
    getCryptosByName sdesc name = some (cryptosOf sdesc name) := by
  obtain ⟨content, desc, hcontent, hmedia, hdesc⟩ := exists_content h
  simp [cryptosOf, getCryptosByName, hcontent, hmedia, hdesc]

def prunedBy (sdesc : SessionDescription) (names : List (List Uint8)) (common : List CryptoParams) :
    List CryptoParams :=
  (rtpNames sdesc names).foldl (fun common name => pruneCryptos (cryptosOf sdesc name) common) common

theorem mem_pruneCryptos {source : List CryptoParams} {crypto : CryptoParams} :
    crypto ∈ pruneCryptos source common ↔
      crypto ∈ common ∧ ∃ it ∈ source, it.cipherSuite = crypto.cipherSuite := by
  simp [pruneCryptos]

theorem mem_prunedBy {crypto : CryptoParams} : crypto ∈ prunedBy sdesc names common ↔
    crypto ∈ common ∧ ∀ name ∈ rtpNames sdesc names, HasSuite sdesc name crypto.cipherSuite := by
  unfold prunedBy
  induction rtpNames sdesc names generalizing common with
  | nil => simp
  | cons name names ih =>
    rw [List.foldl_cons, ih, mem_pruneCryptos, List.forall_mem_cons, and_assoc]
    rfl

theorem commonCryptos_eq (names : List (List Uint8)) (needed : Bool) (common : List CryptoParams) :
    commonCryptos sdesc false names needed common =
      if ∃ name ∈ rtpNames sdesc names, sdesc.getTransportInfoByName name = none then .crash
      else .done (needed || (rtpNames sdesc names).any (insecure sdesc)) (prunedBy sdesc names common) := by
  induction names generalizing needed common with
  | nil => simp [commonCryptos, rtpNames, prunedBy]
  | cons name names ih =>
    rw [commonCryptos]
    by_cases hrtp : isRtpContent sdesc name = true
    · have hcons : rtpNames sdesc (name :: names) = name :: rtpNames sdesc names := List.filter_cons_of_pos hrtp
      rw [if_neg (by simp [hrtp]), getCryptosByName_isSome hrtp]
      cases hinfo : sdesc.getTransportInfoByName name with
      | none => exact (if_pos ⟨name, hcons ▸ List.mem_cons_self, hinfo⟩).symm
      | some info =>
        have hexists : (∃ n ∈ name :: rtpNames sdesc names, sdesc.getTransportInfoByName n = none) ↔
            ∃ n ∈ rtpNames sdesc names, sdesc.getTransportInfoByName n = none := by simp [hinfo]
        have hinsecure : insecure sdesc name = !secure info.description := by simp [insecure, hinfo]
        simp only [Bool.false_eq_true, if_false]
        rw [ih, hcons, List.any_cons, hinsecure, ← Bool.or_assoc]
        simp only [hexists, prunedBy, hcons, List.foldl_cons]
    · have hcons : rtpNames sdesc (name :: names) = rtpNames sdesc names := List.filter_cons_of_neg hrtp
      rw [if_pos (by simp [hrtp]), ih]
      simp only [prunedBy, hcons]

/-! ## Setting the parameters -/

def withCryptos (sdesc : SessionDescription) (name : List Uint8) (cryptos : List CryptoParams) :
    SessionDescription :=
  { sdesc with contents := setCryptos name cryptos sdesc.contents }

theorem getContentByName_withCryptos (cryptos : List CryptoParams) (n : List Uint8) :
    (withCryptos sdesc name cryptos).getContentByName n =
      if n = name then (sdesc.getContentByName n).map fun content =>
        { content with description := content.description.map (ContentDescription.setCryptos cryptos) }
      else sdesc.getContentByName n := by
  unfold SessionDescription.getContentByName withCryptos
  simp only
  induction sdesc.contents with
  | nil => simp [setCryptos]
  | cons content contents ih =>
    rw [setCryptos, List.find?_cons]
    by_cases hname : content.name = name
    · rw [if_pos hname, List.find?_cons]
      by_cases hn : n = name
      · simp [hname, hn]
      · have : ¬name = n := fun h => hn h.symm
        simp [hname, hn, this]
    · rw [if_neg hname, List.find?_cons, ih]
      by_cases hcontent : content.name = n
      · have hn : n ≠ name := hcontent ▸ hname
        simp [hcontent, hn]
      · simp [hcontent]

theorem isRtpContent_withCryptos (cryptos : List CryptoParams) (n : List Uint8) :
    isRtpContent (withCryptos sdesc name cryptos) n = isRtpContent sdesc n := by
  unfold isRtpContent
  rw [getContentByName_withCryptos]
  split_ifs with h
  · cases sdesc.getContentByName n with
    | none => rfl
    | some content =>
      cases hdesc : content.description with
      | none => simp [isMediaContent, hdesc]
      | some desc => cases desc <;> simp [isMediaContent, hdesc, ContentDescription.setCryptos, ContentDescription.media]
  · rfl

theorem cryptosOf_withCryptos (h : isRtpContent sdesc name = true) (cryptos : List CryptoParams) (n : List Uint8) :
    cryptosOf (withCryptos sdesc name cryptos) n = if n = name then cryptos else cryptosOf sdesc n := by
  unfold cryptosOf getCryptosByName
  rw [getContentByName_withCryptos]
  split_ifs with hn
  · obtain ⟨content, desc, hcontent, hmedia, hdesc⟩ := exists_content h
    have hmedia' : ∀ description, isMediaContent { content with description := description } = true :=
      fun _ => hmedia
    rw [hn, hcontent]
    cases desc <;> simp [hmedia', hdesc, ContentDescription.setCryptos, ContentDescription.media]
  · rfl

theorem setCommonCryptos_spec (common : List CryptoParams) (names : List (List Uint8)) (sdesc : SessionDescription) :
    (setCommonCryptos common names sdesc).1 = true ∧
      (∀ n ∈ rtpNames sdesc names, cryptosOf (setCommonCryptos common names sdesc).2 n = common) ∧
      ∀ n ∉ rtpNames sdesc names, cryptosOf (setCommonCryptos common names sdesc).2 n = cryptosOf sdesc n := by
  induction names generalizing sdesc with
  | nil => exact ⟨rfl, fun n hn => absurd hn List.not_mem_nil, fun _ _ => rfl⟩
  | cons name names ih =>
    rw [setCommonCryptos]
    by_cases hrtp : isRtpContent sdesc name = true
    · have hcons : rtpNames sdesc (name :: names) = name :: rtpNames sdesc names := List.filter_cons_of_pos hrtp
      obtain ⟨content, desc, hcontent, hmedia, hdesc⟩ := exists_content hrtp
      have hsame : rtpNames (withCryptos sdesc name common) names = rtpNames sdesc names :=
        List.filter_congr fun n _ => isRtpContent_withCryptos common n
      obtain ⟨hresult, hset, hkept⟩ := ih (withCryptos sdesc name common)
      rw [hsame] at hset hkept
      rw [if_neg (by simp [hrtp]), hcontent, hcons]
      simp only [hmedia, hdesc, Bool.not_true, Bool.false_eq_true, if_false, Option.isNone_some]
      refine ⟨hresult, fun n hn => ?_, fun n hn => ?_⟩
      · by_cases hmem : n ∈ rtpNames sdesc names
        · exact hset n hmem
        · obtain rfl : n = name := (List.mem_cons.mp hn).resolve_right hmem
          exact (hkept n hmem).trans ((cryptosOf_withCryptos hrtp common n).trans (if_pos rfl))
      · obtain ⟨hne, hmem⟩ := not_or.mp (mt List.mem_cons.mpr hn)
        exact (hkept n hmem).trans ((cryptosOf_withCryptos hrtp common n).trans (if_neg hne))
    · have hcons : rtpNames sdesc (name :: names) = rtpNames sdesc names := List.filter_cons_of_neg hrtp
      rw [if_pos (by simp [hrtp]), hcons]
      exact ih sdesc

end Common

/-! ## What is promised -/

def CommonSuite (sdesc : SessionDescription) (names : List (List Uint8)) (suite : List Uint8) : Prop :=
  ∀ name ∈ rtpNames sdesc names, HasSuite sdesc name suite

/-- The RTP contents of a group have the same parameters. -/
structure Shared (names : List (List Uint8)) (before after : SessionDescription) : Prop where
  same : ∀ n ∈ rtpNames before names, ∀ m ∈ rtpNames before names, cryptosOf after n = cryptosOf after m
  suites : ∀ n ∈ rtpNames before names, ∀ suite, HasSuite after n suite ↔ CommonSuite before names suite

/-- What is promised of `updateCryptoParamsForBundle`. -/
structure Bundled (group : ContentGroup) (sdesc : SessionDescription) : Prop where
  shared : ∀ after, updateCryptoParamsForBundle group sdesc = some (true, after) →
    Shared group.contentNames sdesc after
  failed : ∀ after, updateCryptoParamsForBundle group sdesc = some (false, after) →
    (∃ n ∈ rtpNames sdesc group.contentNames, insecure sdesc n = true) ∧
      ∀ suite, ¬CommonSuite sdesc group.contentNames suite

def Spoiled (sdesc : SessionDescription) (names : List (List Uint8)) : Prop :=
  ∃ first, names.head? = some first ∧
    (isRtpContent sdesc first = true ∧ sdesc.getTransportInfoByName first ≠ none ∧ cryptosOf sdesc first = [] ∧
        (∃ n ∈ rtpNames sdesc names, cryptosOf sdesc n ≠ []) ∨
      isRtpContent sdesc first = false ∧ (∀ n ∈ rtpNames sdesc names, sdesc.getTransportInfoByName n ≠ none) ∧
        rtpNames sdesc names ≠ [] ∧ ∃ suite, CommonSuite sdesc names suite)

section Promise

variable {group : ContentGroup} {sdesc : SessionDescription} {first : List Uint8} {rest names : List (List Uint8)}
  {needed : Bool} {common : List CryptoParams}

theorem finish_spec (hneeded : needed = (rtpNames sdesc names).any (insecure sdesc))
    (hcommon : rtpNames sdesc names ≠ [] → ∀ suite, (∃ crypto ∈ common, crypto.cipherSuite = suite) ↔
      CommonSuite sdesc names suite) {result : Bool} {after : SessionDescription}
    (h : (if common = [] ∧ needed then some (false, sdesc) else some (setCommonCryptos common names sdesc)) =
      some (result, after)) :
    (result = true → Shared names sdesc after) ∧
      (result = false → (∃ n ∈ rtpNames sdesc names, insecure sdesc n = true) ∧
        ∀ suite, ¬CommonSuite sdesc names suite) := by
  split_ifs at h with hfail
  · cases h
    obtain ⟨hnil, hneed⟩ := hfail
    obtain ⟨n, hn, hinsecure⟩ := List.any_eq_true.mp (hneeded.symm.trans hneed)
    refine ⟨fun htrue => absurd htrue Bool.false_ne_true, fun _ => ⟨⟨n, hn, hinsecure⟩, fun suite hsuite => ?_⟩⟩
    obtain ⟨crypto, hmem, -⟩ := (hcommon (List.ne_nil_of_mem hn) suite).mpr hsuite
    rw [hnil] at hmem
    cases hmem
  · obtain ⟨hresult, hset, -⟩ := setCommonCryptos_spec common names sdesc
    rw [Option.some.inj h] at hresult hset
    refine ⟨fun _ => ⟨fun n hn m hm => (hset n hn).trans (hset m hm).symm, fun n hn suite => ?_⟩,
      fun hfalse => absurd (hfalse.symm.trans hresult) Bool.false_ne_true⟩
    rw [← hcommon (List.ne_nil_of_mem hn) suite, HasSuite, hset n hn]

theorem bundled_of_done (hnames : group.contentNames = names) (hne : names ≠ [])
    (hdone : commonCryptos sdesc true names false [] = .done needed common)
    (hneeded : needed = (rtpNames sdesc names).any (insecure sdesc))
    (hcommon : rtpNames sdesc names ≠ [] → ∀ suite, (∃ crypto ∈ common, crypto.cipherSuite = suite) ↔
      CommonSuite sdesc names suite) : Bundled group sdesc := by
  have hupdate : updateCryptoParamsForBundle group sdesc =
      if common = [] ∧ needed then some (false, sdesc) else some (setCommonCryptos common names sdesc) := by
    unfold updateCryptoParamsForBundle
    rw [hnames, if_neg hne, hdone]
  subst hnames
  exact ⟨fun after h => (finish_spec hneeded hcommon (hupdate.symm.trans h)).1 rfl,
    fun after h => (finish_spec hneeded hcommon (hupdate.symm.trans h)).2 rfl⟩

theorem bundled_of_crash (hnames : group.contentNames = names) (hne : names ≠ [])
    (hcrash : commonCryptos sdesc true names false [] = .crash) : Bundled group sdesc := by
  have hupdate : updateCryptoParamsForBundle group sdesc = none := by
    unfold updateCryptoParamsForBundle
    rw [hnames, if_neg hne, hcrash]
  refine ⟨fun after h => ?_, fun after h => ?_⟩ <;>
    · rw [hupdate] at h
      cases h

theorem rtpNames_cons_of_rtp (h : isRtpContent sdesc first = true) :
    rtpNames sdesc (first :: rest) = first :: rtpNames sdesc rest := List.filter_cons_of_pos h

theorem rtpNames_cons_of_other (h : isRtpContent sdesc first = false) :
    rtpNames sdesc (first :: rest) = rtpNames sdesc rest :=
  List.filter_cons_of_neg (by rw [h]; exact Bool.false_ne_true)

theorem bundled_iff_of_empty (hnames : group.contentNames = first :: rest) (hrtp : isRtpContent sdesc first = true)
    (hinfo : sdesc.getTransportInfoByName first ≠ none) (hempty : cryptosOf sdesc first = []) :
    Bundled group sdesc ↔ ∀ n ∈ rtpNames sdesc (first :: rest), cryptosOf sdesc n = [] := by
  obtain ⟨info, hinfo⟩ := Option.ne_none_iff_exists'.mp hinfo
  have hupdate : updateCryptoParamsForBundle group sdesc = some (true, sdesc) := by
    unfold updateCryptoParamsForBundle
    rw [hnames, if_neg (List.cons_ne_nil _ _), commonCryptos, if_neg (by simp [hrtp]), hinfo,
      getCryptosByName_isSome hrtp, hempty]
    rfl
  have hfirst : first ∈ rtpNames sdesc (first :: rest) := rtpNames_cons_of_rtp hrtp ▸ List.mem_cons_self
  constructor
  · intro h n hn
    have hshared := h.shared sdesc hupdate
    rw [hnames] at hshared
    rw [hshared.same n hn first hfirst, hempty]
  · intro h
    have hnone (n : List Uint8) (hn : n ∈ rtpNames sdesc (first :: rest)) (suite : List Uint8) :
        ¬HasSuite sdesc n suite := by
      rintro ⟨crypto, hmem, -⟩
      rw [h n hn] at hmem
      cases hmem
    refine ⟨fun after hafter => ?_, fun after hafter => ?_⟩
    · rw [hupdate] at hafter
      obtain rfl := (Prod.mk.inj (Option.some.inj hafter)).2
      rw [hnames]
      refine ⟨fun n hn m hm => (h n hn).trans (h m hm).symm, fun n hn suite => ?_⟩
      exact ⟨fun hsuite => absurd hsuite (hnone n hn suite),
        fun hsuite => absurd (hsuite first hfirst) (hnone first hfirst suite)⟩
    · rw [hupdate] at hafter
      cases hafter

theorem bundled_of_first (hnames : group.contentNames = first :: rest) (hrtp : isRtpContent sdesc first = true)
    (hsome : sdesc.getTransportInfoByName first = none ∨ cryptosOf sdesc first ≠ []) : Bundled group sdesc := by
  have hne : first :: rest ≠ [] := List.cons_ne_nil _ _
  have hnot : ¬(!isRtpContent sdesc first) = true := by simp [hrtp]
  cases hinfo : sdesc.getTransportInfoByName first with
  | none => exact bundled_of_crash hnames hne (by rw [commonCryptos, if_neg hnot, hinfo])
  | some info =>
    have hcryptos := hsome.resolve_left (by rw [hinfo]; exact Option.some_ne_none _)
    have hstep : commonCryptos sdesc true (first :: rest) false [] =
        commonCryptos sdesc false rest (!secure info.description) (cryptosOf sdesc first) := by
      rw [commonCryptos, if_neg hnot, hinfo, getCryptosByName_isSome hrtp]
      simp only [if_true, Bool.false_or]
      rw [if_neg hcryptos]
    rw [commonCryptos_eq] at hstep
    split_ifs at hstep with hcrash
    · exact bundled_of_crash hnames hne hstep
    · refine bundled_of_done hnames hne hstep ?_ fun _ suite => ?_
      · rw [rtpNames_cons_of_rtp hrtp, List.any_cons]
        simp [insecure, hinfo]
      · rw [CommonSuite, rtpNames_cons_of_rtp hrtp, List.forall_mem_cons]
        constructor
        · rintro ⟨crypto, hmem, rfl⟩
          obtain ⟨hcrypto, hall⟩ := mem_prunedBy.mp hmem
          exact ⟨⟨crypto, hcrypto, rfl⟩, hall⟩
        · rintro ⟨⟨crypto, hcrypto, rfl⟩, hall⟩
          exact ⟨crypto, mem_prunedBy.mpr ⟨hcrypto, hall⟩, rfl⟩

theorem bundled_iff_of_other (hnames : group.contentNames = first :: rest) (hother : isRtpContent sdesc first = false) :
    Bundled group sdesc ↔
      ¬((∀ n ∈ rtpNames sdesc (first :: rest), sdesc.getTransportInfoByName n ≠ none) ∧
        rtpNames sdesc (first :: rest) ≠ [] ∧ ∃ suite, CommonSuite sdesc (first :: rest) suite) := by
  have hne : first :: rest ≠ [] := List.cons_ne_nil _ _
  have hrest := @rtpNames_cons_of_other sdesc first rest hother
  have hstep : commonCryptos sdesc true (first :: rest) false [] = commonCryptos sdesc false rest false [] := by
    rw [commonCryptos, if_pos (by simp [hother])]
  have hpruned : prunedBy sdesc rest [] = [] := List.eq_nil_iff_forall_not_mem.mpr fun crypto hmem =>
    List.not_mem_nil (mem_prunedBy.mp hmem).1
  rw [commonCryptos_eq, hpruned] at hstep
  split_ifs at hstep with hcrash
  · refine ⟨fun _ h => ?_, fun _ => bundled_of_crash hnames hne hstep⟩
    obtain ⟨n, hn, hinfo⟩ := hcrash
    exact h.1 n (hrest ▸ hn) hinfo
  · constructor
    · rintro h ⟨-, hsome, suite, hsuite⟩
      obtain ⟨n, hn⟩ := List.exists_mem_of_ne_nil _ hsome
      have hupdate : updateCryptoParamsForBundle group sdesc =
          if ([] : List CryptoParams) = [] ∧ (false || (rtpNames sdesc rest).any (insecure sdesc)) then
            some (false, sdesc) else some (setCommonCryptos [] (first :: rest) sdesc) := by
        unfold updateCryptoParamsForBundle
        rw [hnames, if_neg hne, hstep]
      split_ifs at hupdate with hneeded
      · have hfailed := (h.failed sdesc hupdate).2 suite
        rw [hnames] at hfailed
        exact hfailed hsuite
      · obtain ⟨hresult, hset, -⟩ := setCommonCryptos_spec [] (first :: rest) sdesc
        have hshared := h.shared (setCommonCryptos [] (first :: rest) sdesc).2 (by rw [hupdate, ← hresult])
        rw [hnames] at hshared
        obtain ⟨crypto, hmem, -⟩ := (hshared.suites n hn suite).mpr hsuite
        rw [hset n hn] at hmem
        cases hmem
    · intro h
      refine bundled_of_done hnames hne hstep ?_ fun hsome suite => ?_
      · rw [hrest, Bool.false_or]
      · refine ⟨fun ⟨crypto, hmem, _⟩ => absurd hmem List.not_mem_nil, fun hsuite => ?_⟩
        refine absurd ⟨fun n hn hinfo => hcrash ⟨n, hrest ▸ hn, hinfo⟩, hsome, suite, hsuite⟩ h

/-- **Bundled contents share their common parameters** just if the first content does not spoil
them. -/
theorem bundled_iff (hne : group.contentNames ≠ []) : Bundled group sdesc ↔ ¬Spoiled sdesc group.contentNames := by
  obtain ⟨first, rest, hnames⟩ := List.exists_cons_of_ne_nil hne
  have hspoiled : Spoiled sdesc (first :: rest) ↔ _ :=
    ⟨fun ⟨n, hn, h⟩ => (Option.some.inj hn).symm ▸ h, fun h => ⟨first, rfl, h⟩⟩
  rw [hnames, hspoiled]
  by_cases hrtp : isRtpContent sdesc first = true
  · have hfalse : ¬isRtpContent sdesc first = false := by simp [hrtp]
    by_cases hempty : sdesc.getTransportInfoByName first ≠ none ∧ cryptosOf sdesc first = []
    · rw [bundled_iff_of_empty hnames hrtp hempty.1 hempty.2]
      simp [hrtp, hempty.1, hempty.2]
    · have hbundled := @bundled_of_first group sdesc first rest hnames hrtp (by
        by_contra hboth
        rw [not_or, not_not] at hboth
        exact hempty hboth)
      refine ⟨fun _ h => ?_, fun _ => hbundled⟩
      rcases h with ⟨-, hinfo, hnil, -⟩ | ⟨h, -⟩
      · exact hempty ⟨hinfo, hnil⟩
      · exact hfalse h
  · have hother : isRtpContent sdesc first = false := Bool.eq_false_iff.mpr hrtp
    rw [bundled_iff_of_other hnames hother]
    simp [hother]

end Promise

def twoContents (first second : List CryptoParams) : SessionDescription where
  contents := [⟨[97], nsJingleRtp, false, some (.audio { cryptos := first })⟩,
    ⟨[98], nsJingleRtp, false, some (.audio { cryptos := second })⟩]
  transportInfos := [⟨[97], ⟨[], [], [], [], .full, .none, none⟩⟩, ⟨[98], ⟨[], [], [], [], .full, .none, none⟩⟩]

/-- The contents `a` and `b`. -/
def twoNames : ContentGroup := { semantics := text "BUNDLE", contentNames := [[97], [98]] }

/-- The first content has no parameters: the second one keeps its own. -/
theorem bundle_fails : ∃ group sdesc, group.contentNames ≠ [] ∧ ¬Bundled group sdesc := by
  refine ⟨twoNames, twoContents [] [{ tag := 1 }], by decide, fun h => ?_⟩
  rw [@bundled_iff_of_empty twoNames _ [97] [[98]] rfl (by decide) (by decide) (by decide)] at h
  exact absurd (h [98] (by decide)) (by decide)

/-- Both have parameters. -/
theorem bundled_two : Bundled twoNames (twoContents [{ tag := 1 }] [{ tag := 2 }]) := by
  refine (bundled_iff (by decide)).mpr ?_
  rintro ⟨first, hfirst, h⟩
  obtain rfl := Option.some.inj hfirst
  rcases h with ⟨-, -, h, -⟩ | ⟨h, -⟩
  · exact absurd h (by decide)
  · exact absurd h (by decide)

end Libjingle.Media
