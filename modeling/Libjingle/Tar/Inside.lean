import Libjingle.Lib.LexicalPath
import Libjingle.Lib.Run
import Libjingle.Tar.Stream

/-!
# What the extraction of an archive creates

The path of an entry comes from the archive. It is divided into a folder and a name, checked, and appended
to the root folder.

Main results: **`matches_of_checkFilter`**, **`extracted_createEntry`**, **`extraction_inside`**,
**`extraction_escapes`**.
-/

variable {l path folder : List Uint8}

namespace Libjingle.Tar

open Lib
open Http (tolower)
open TarStream (Header)

abbrev slash : Uint8 := 0x2F#8

/-- **A path that resolves inside a root folder**, by its text. -/
def InsideRoot (root path : List Uint8) : Prop := Inside slash extDelim root path

abbrev absolute (path : List Uint8) : Bool := isAbsolute slash path

def FileSystem.RefusesDots {φ : Type} (fs : FileSystem φ) : Prop :=
  ∀ files path, lastComponent slash path = [extDelim] ∨ lastComponent slash path = parent extDelim →
    (fs.openWrite files path).1 = false

/-! ## Filters -/

def cString (l : List Uint8) : List Uint8 := l.takeWhile (· ≠ 0)

/-- There is a filter that equals the path or is a folder it is in. -/
def Matches (filters : List (List Uint8)) (path : List Uint8) : Prop :=
  filters = [] ∨ ∃ filter ∈ filters, (cString filter).map tolower = path.map tolower ∨
    (cString filter).getLast?.any isFolderDelim = true ∧
      (cString filter).map tolower <+: path.map tolower

theorem tolower_eq_zero {ch : Uint8} : tolower ch = 0 ↔ ch = 0 := by
  revert ch
  decide

theorem prefix_of_sameNoCase {filter : List Uint8} (hpath : (0 : Uint8) ∉ path)
    (h : TarStream.sameNoCase filter.length path filter = true) :
    (cString filter = filter ∧ filter.map tolower <+: path.map tolower) ∨
      (cString filter).map tolower = path.map tolower := by
  induction filter generalizing path with
  | nil => exact Or.inl ⟨rfl, List.nil_prefix⟩
  | cons b filter ih =>
    rw [List.length_cons, TarStream.sameNoCase] at h
    simp only [List.headD_cons, List.tail_cons, Bool.and_eq_true, decide_eq_true_eq,
      Bool.or_eq_true] at h
    cases path with
    | nil =>
      have hzero : tolower 0 = tolower b := of_decide_eq_true h.1
      have hb : b = 0 := tolower_eq_zero.mp (hzero.symm.trans rfl)
      right
      simp [cString, hb]
    | cons a path =>
      obtain ⟨ha, hpath⟩ := not_or.mp (mt List.mem_cons.mpr hpath)
      obtain ⟨hab, hrest⟩ := h
      replace hab : tolower a = tolower b := of_decide_eq_true hab
      simp only [List.headD_cons, List.tail_cons] at hrest
      have hb : b ≠ 0 := fun hb => ha (tolower_eq_zero.mp (by rw [hab, hb]; rfl)).symm
      have hcons : cString (b :: filter) = b :: cString filter := by
        rw [cString, List.takeWhile_cons_of_pos (by simpa using hb)]
        rfl
      rw [hcons, List.map_cons, List.map_cons, List.map_cons, hab]
      rcases ih hpath (hrest.resolve_left fun hzero => ha hzero.symm) with ⟨hwhole, hpre⟩ | hsame
      · exact Or.inl ⟨by rw [hwhole], List.cons_prefix_cons.mpr ⟨rfl, hpre⟩⟩
      · exact Or.inr (by rw [hsame])

/-- **A path that passes `CheckFilter` matches a filter**. -/
theorem matches_of_checkFilter {φ : Type} {s : TarStream φ}
    (hpath : (0 : Uint8) ∉ path) (h : s.checkFilter path = true) : Matches s.filters path := by
  rw [TarStream.checkFilter, Bool.or_eq_true] at h
  rcases h with hnil | hany
  · exact Or.inl (List.isEmpty_iff.mp hnil)
  · obtain ⟨filter, hfilter, hmatch⟩ := List.any_eq_true.mp hany
    rw [TarStream.matchesFilter, Bool.and_eq_true, Bool.or_eq_true] at hmatch
    refine Or.inr ⟨filter, hfilter, ?_⟩
    rcases prefix_of_sameNoCase hpath hmatch.1 with ⟨hwhole, hpre⟩ | hsame
    · rw [hwhole]
      rcases hmatch.2 with hfolder | hlength
      · right
        refine ⟨?_, hpre⟩
        rw [Option.any_eq_true] at hfolder ⊢
        obtain ⟨ch, hch, hdelim⟩ := hfolder
        refine ⟨ch, hch, ?_⟩
        rw [isFolderDelimiter, Bool.or_eq_true] at hdelim
        refine hdelim.resolve_right fun hzero => ?_
        have hmem : ch ∈ cString filter := by
          rw [hwhole]
          exact List.mem_of_getLast? hch
        have hne := List.mem_takeWhile_imp hmem
        rw [beq_iff_eq] at hzero
        simp [hzero] at hne
      · left
        refine hpre.eq_of_length ?_
        rw [List.length_map, List.length_map]
        exact of_decide_eq_true hlength
    · exact Or.inl hsame

/-! ## The paths -/

def Clean (l : List Uint8) : Prop := ∀ ch ∈ l, ch ≠ 0x5C#8 ∧ ch ≠ 0#8

def IsFolder (l : List Uint8) : Prop := l = [] ∨ l.getLast? = some slash

theorem isFolderDelimiter_of_clean (h : Clean l) {ch : Uint8} (hch : ch ∈ l)
    (hdelim : isFolderDelimiter ch = true) : ch = slash := by
  obtain ⟨hback, hnul⟩ := h ch hch
  simp only [isFolderDelimiter, isFolderDelim, Bool.or_eq_true, beq_iff_eq] at hdelim
  tauto

theorem map_normalize_of_clean (h : Clean l) : (l.map fun ch => if isFolderDelimiter ch then slash else ch) = l := by
  refine (List.map_congr_left fun ch hch => ?_).trans (List.map_id l)
  split
  · rename_i hdelim
    exact (isFolderDelimiter_of_clean h hch hdelim).symm
  · rfl

theorem clean_map_normalize : Clean (l.map fun ch => if isFolderDelimiter ch then slash else ch) := by
  intro ch hch
  obtain ⟨ch', -, rfl⟩ := List.mem_map.mp hch
  split
  · decide
  · rename_i hdelim
    simp only [isFolderDelimiter, isFolderDelim, Bool.or_eq_true, beq_iff_eq, not_or] at hdelim
    exact ⟨hdelim.1.2, hdelim.2⟩

theorem clean_append {l' : List Uint8} (h : Clean l) (h' : Clean l') : Clean (l ++ l') := by
  intro ch hch
  rcases List.mem_append.mp hch with hch | hch
  · exact h ch hch
  · exact h' ch hch

theorem Clean.of_subset {l' : List Uint8} (h : Clean l) (hsub : l' ⊆ l) : Clean l' :=
  fun ch hch => h ch (hsub hch)

theorem throughDelim_of_isFolder (h : IsFolder l) : throughDelim l = l := by
  rw [throughDelim, List.rdropWhile_eq_self_iff]
  intro hne
  rcases h with hnil | hlast
  · exact absurd hnil hne
  · rw [List.getLast?_eq_some_getLast hne, Option.some.injEq] at hlast
    rw [hlast]
    decide

theorem normalize_setPathname (h : Clean l) (hne : l ≠ []) (p : Pathname)
    (hdelim : p.folderDelimiter = slash) : (p.setPathname l).normalize.pathname = l := by
  have hfolder : (p.setPathname l).folderDelimiter = slash := by
    rw [Pathname.setPathname, (Pathname.filename_setFilename _ (any_afterDelim l)).2.2.2]
    unfold Pathname.setFolder
    split <;> exact hdelim
  have hsame : (p.setPathname l).normalize = p.setPathname l := by
    have hclean : Clean (throughDelim l) :=
      h.of_subset (List.rdropWhile_prefix _ l).subset
    have hmap : (p.setPathname l).folder.map
        (fun ch => if isFolderDelimiter ch then (p.setPathname l).folderDelimiter else ch) =
        (p.setPathname l).folder := by
      rw [hfolder, Pathname.folder_setPathname, map_normalize_of_clean hclean]
    rw [Pathname.normalize, hmap]
  rw [hsame, Pathname.pathname_setPathname p hne]

theorem folderDelimiter_ofPathname (l : List Uint8) : (Pathname.ofPathname l).folderDelimiter = slash := by
  rw [Pathname.ofPathname, Pathname.setPathname, (Pathname.filename_setFilename _ (any_afterDelim l)).2.2.2]
  unfold Pathname.setFolder
  split <;> rfl

theorem localPath_eq {φ : Type} {s : TarStream φ} (hroot : IsFolder s.rootFolder)
    (hclean : Clean s.rootFolder) (hpath : Clean path) (hne : path ≠ []) :
    s.localPath path = s.rootFolder ++ path := by
  rw [TarStream.localPath, Pathname.appendPathname, Pathname.ofPathname, Pathname.folder_setPathname,
    throughDelim_of_isFolder hroot]
  exact normalize_setPathname (clean_append hclean hpath) (by simp [hne]) _
    (folderDelimiter_ofPathname s.rootFolder)

theorem archivePath_eq (hne : l ≠ []) (hnul : (0 : Uint8) ∉ l) :
    ∃ folder name, (TarStream.archivePath (.ofPathname l)).pathname = folder ++ name ∧
      (TarStream.archivePath (.ofPathname l)).filename = name ∧ folder ++ name ≠ [] ∧
      IsFolder folder ∧ slash ∉ name ∧ Clean (folder ++ name) := by
  let folder := (throughDelim l).map fun ch => if isFolderDelimiter ch then slash else ch
  have hfolder : (TarStream.archivePath (.ofPathname l)).folder = folder := by
    simp only [TarStream.archivePath, Pathname.normalize, Pathname.setFolderDelimiter,
      Pathname.ofPathname, Pathname.folder_setPathname, folder]
  have hname : (TarStream.archivePath (.ofPathname l)).filename = afterDelim l :=
    Pathname.filename_setPathname _ l
  have hjoin : folder ++ afterDelim l ≠ [] := by
    intro hnil
    obtain ⟨hf, ha⟩ := List.append_eq_nil_iff.mp hnil
    refine hne ?_
    rw [← throughDelim_append_afterDelim l, ha, List.map_eq_nil_iff.mp hf]
    rfl
  refine ⟨folder, afterDelim l, ?_, hname, hjoin, ?_, ?_, ?_⟩
  · rw [Pathname.pathname_eq _ (by rwa [hfolder, hname]), hfolder, hname]
  · by_cases hthrough : throughDelim l = []
    · exact Or.inl (by simp [folder, hthrough])
    · right
      have hlast := List.rdropWhile_last_not (fun ch => !isFolderDelim ch) l hthrough
      simp only [Bool.not_eq_true, Bool.not_eq_false'] at hlast
      have hlast? : (throughDelim l).getLast? = some ((throughDelim l).getLast hthrough) :=
        List.getLast?_eq_some_getLast hthrough
      have hdelim : isFolderDelimiter ((throughDelim l).getLast hthrough) = true := by
        rw [isFolderDelimiter, Bool.or_eq_true]
        exact Or.inl hlast
      simp only [folder, List.getLast?_map, hlast?, Option.map_some, hdelim, if_true]
  · intro hmem
    have := isFolderDelim_of_mem_afterDelim hmem
    cases this
  · refine clean_append clean_map_normalize fun ch hch => ⟨?_, ?_⟩
    · rintro rfl
      cases isFolderDelim_of_mem_afterDelim hch
    · rintro rfl
      exact hnul ((List.rtakeWhile_suffix _ l).subset hch)

/-! ## One entry -/

/-- **What an extraction may create.** -/
structure Extracted (filters : List (List Uint8)) (rootFolder : List Uint8) (c : Created) : Prop where
  allowed : Matches filters c.entry
  inside : InsideRoot rootFolder c.pathname
  onTheWay : ∀ entry pathname, c = .folder entry pathname → ∀ folder, folder <+: pathname →
    rootFolder <+: folder → IsFolder folder → InsideRoot rootFolder folder

theorem insideRoot_append {root : List Uint8} (hroot : IsFolder root)
    (habsolute : root = [] → absolute path = false) (hsane : ¬ text "../" <:+: path)
    (hlast : lastComponent slash path ≠ parent extDelim) : InsideRoot root (root ++ path) :=
  inside_append hroot habsolute (parent_not_mem_components hsane hlast)

theorem lastComponent_of_isFolder {name : List Uint8} (hfolder : IsFolder folder)
    (hname : slash ∉ name) : lastComponent slash (folder ++ name) = name := by
  have hself : lastComponent slash name = name := by
    rw [lastComponent, List.rtakeWhile_eq_self_iff]
    intro ch hch
    simp only [decide_eq_true_eq]
    rintro rfl
    exact hname hch
  rcases hfolder with rfl | hlast
  · exact hself
  · obtain ⟨init, rfl⟩ := List.getLast?_eq_some_iff.mp hlast
    rw [List.append_assoc, List.singleton_append, lastComponent_append_sep, hself]

theorem lastComponent_nil_of_isFolder (h : IsFolder folder) : lastComponent slash folder = [] := by
  simpa using lastComponent_of_isFolder h (List.not_mem_nil (a := slash))

theorem insideRoot_of_prefix {root : List Uint8} (hroot : IsFolder root)
    (habsolute : root = [] → absolute path = false) (hsane : ¬ text "../" <:+: path)
    (hpre : folder <+: root ++ path) (hbelow : root <+: folder) (hfolder : IsFolder folder) :
    InsideRoot root folder := by
  obtain ⟨below, rfl⟩ := hbelow
  have hbelow : below <+: path := (List.prefix_append_right_inj root).mp hpre
  have hlast : lastComponent slash below = [] := by
    rcases List.eq_nil_or_concat below with rfl | ⟨init, ch, rfl⟩
    · rfl
    · rcases hfolder with hnil | hlast
      · simp at hnil
      · simp only [List.concat_eq_append, ← List.append_assoc, List.getLast?_append_of_ne_nil,
          List.getLast?_singleton, Option.some.injEq, ne_eq, List.cons_ne_self, not_false_eq_true] at hlast
        rw [List.concat_eq_append]
        exact lastComponent_nil_of_isFolder (Or.inr (by simp [hlast]))
  refine insideRoot_append hroot (fun hnil => ?_) (fun hin => hsane (hin.trans hbelow.isInfix)) ?_
  · have hpath := habsolute hnil
    cases below with
    | nil => rfl
    | cons ch below =>
      obtain ⟨rest, rfl⟩ := hbelow
      exact hpath
  · rw [hlast]
    exact (List.cons_ne_nil _ _).symm

section Steps

variable {φ : Type} {fs : FileSystem φ} {s s' s'' : TarStream φ}

/-- What changes only in ways that an extraction may. -/
structure Safe (s s' : TarStream φ) : Prop where
  mode : s'.mode = s.mode
  filters : s'.filters = s.filters
  rootFolder : s'.rootFolder = s.rootFolder
  created : ∀ c ∈ s'.created, c ∈ s.created ∨ Extracted s.filters s.rootFolder c

theorem Safe.refl (s : TarStream φ) : Safe s s := ⟨rfl, rfl, rfl, fun _ => Or.inl⟩

theorem Safe.trans (h : Safe s s') (h' : Safe s' s'') : Safe s s'' where
  mode := h'.mode.trans h.mode
  filters := h'.filters.trans h.filters
  rootFolder := h'.rootFolder.trans h.rootFolder
  created c hc := (h'.created c hc).elim (h.created c) fun hnew => by
    rw [h.filters, h.rootFolder] at hnew
    exact Or.inr hnew

theorem Safe.of_same (hmode : s'.mode = s.mode) (hfilters : s'.filters = s.filters)
    (hroot : s'.rootFolder = s.rootFolder) (hcreated : s'.created = s.created) : Safe s s' :=
  ⟨hmode, hfilters, hroot, fun _ hc => Or.inl (hcreated ▸ hc)⟩

/-- The root folder of a stream that has been opened. -/
structure Rooted (s : TarStream φ) : Prop where
  folder : IsFolder s.rootFolder
  clean : Clean s.rootFolder

theorem Rooted.of_safe (h : Rooted s) (hsafe : Safe s s') : Rooted s' :=
  ⟨hsafe.rootFolder ▸ h.folder, hsafe.rootFolder ▸ h.clean⟩

def Escapes (s : TarStream φ) (h : Header) : Prop :=
  s.rootFolder = [] ∧ absolute h.path.pathname = true ∧ s.checkFilter h.path.pathname = true ∧
    TarStream.sane h.path.pathname = true

theorem safe_announceData (s : TarStream φ) (h : Header) : Safe s (s.announceData h) := by
  unfold TarStream.announceData
  split
  · exact .of_same rfl rfl rfl rfl
  · split
    · exact .of_same rfl rfl rfl rfl
    · exact .refl s

theorem safe_makeEntry (hdots : fs.RefusesDots) {h : Header} (hrooted : Rooted s)
    (hne : h.pathname ≠ []) (hnul : (0 : Uint8) ∉ h.pathname)
    (hcheck : s.checkFilter h.path.pathname = true) (hsane : TarStream.sane h.path.pathname = true)
    (habsolute : s.rootFolder = [] → absolute h.path.pathname = false) :
    Safe s (s.makeEntry fs h).2 := by
  obtain ⟨folder, name, hpath, hname, hjoin, hfolder, hslash, hclean⟩ := archivePath_eq hne hnul
  have hpathname : h.path.pathname = folder ++ name := hpath
  have hfilename : h.path.filename = name := hname
  have hzero : (0 : Uint8) ∉ h.path.pathname := by
    rw [hpathname]
    exact fun hmem => (hclean 0 hmem).2 rfl
  have hlocal : s.localPath h.path.pathname = s.rootFolder ++ (folder ++ name) := by
    rw [hpathname]
    exact localPath_eq hrooted.folder hrooted.clean hclean hjoin
  have hmatches := matches_of_checkFilter hzero hcheck
  have hparents : ¬ text "../" <:+: folder ++ name := by
    rw [← hpathname]
    simp only [TarStream.sane, Bool.and_eq_true, Bool.not_eq_true', decide_eq_false_iff_not] at hsane
    exact hsane.1.1
  rw [hpathname] at habsolute
  have hlast : lastComponent slash (folder ++ name) = name := lastComponent_of_isFolder hfolder hslash
  have hinside : name ≠ parent extDelim → InsideRoot s.rootFolder (s.rootFolder ++ (folder ++ name)) :=
    fun hparent => insideRoot_append hrooted.folder habsolute hparents (by rwa [hlast])
  unfold TarStream.makeEntry
  dsimp only
  rw [hfilename, hlocal]
  split
  · rename_i hnil
    have hextracted : Extracted s.filters s.rootFolder
        (.folder h.path.pathname (s.rootFolder ++ (folder ++ name))) := by
      refine ⟨hmatches, hinside (by rw [hnil]; exact (List.cons_ne_nil _ _).symm), ?_⟩
      rintro entry pathname heq folder' hpre hbelow hfolder'
      cases heq
      exact insideRoot_of_prefix hrooted.folder habsolute hparents hpre hbelow hfolder'
    have hcreated : ∀ c ∈ s.created ++ [.folder h.path.pathname (s.rootFolder ++ (folder ++ name))],
        c ∈ s.created ∨ Extracted s.filters s.rootFolder c := by
      intro c hc
      rcases List.mem_append.mp hc with hc | hc
      · exact Or.inl hc
      · rw [List.mem_singleton.mp hc]
        exact Or.inr hextracted
    split
    · exact ⟨rfl, rfl, rfl, hcreated⟩
    · exact ⟨rfl, rfl, rfl, hcreated⟩
  · split
    · exact .of_same rfl rfl rfl rfl
    · rename_i files hopen
      have hparent : name ≠ parent extDelim := by
        rintro rfl
        have hrefused := hdots s.files (s.rootFolder ++ (folder ++ parent extDelim)) (Or.inr ?_)
        · rw [hopen] at hrefused
          cases hrefused
        · rcases hrooted.folder with hnil | hend
          · rw [hnil, List.nil_append, hlast]
          · obtain ⟨init, hinit⟩ := List.getLast?_eq_some_iff.mp hend
            rw [hinit, List.append_assoc, List.singleton_append, lastComponent_append_sep, hlast]
      have hcreated : ∀ c ∈ s.created ++ [.file h.path.pathname (s.rootFolder ++ (folder ++ name))],
          c ∈ s.created ∨ Extracted s.filters s.rootFolder c := by
        intro c hc
        rcases List.mem_append.mp hc with hc | hc
        · exact Or.inl hc
        · rw [List.mem_singleton.mp hc]
          exact Or.inr ⟨hmatches, hinside hparent, fun entry pathname heq => by cases heq⟩
      split
      · exact ⟨rfl, rfl, rfl, hcreated⟩
      · exact ⟨rfl, rfl, rfl, hcreated⟩

/-- **An entry that does not escape is created inside**. -/
theorem extracted_createEntry (hdots : fs.RefusesDots) {h : Header} (hrooted : Rooted s)
    (hne : h.pathname ≠ []) (hnul : (0 : Uint8) ∉ h.pathname) (hescape : ¬ Escapes s h) :
    Safe s (s.createEntry fs h).2 := by
  have hdata := safe_announceData s h
  unfold TarStream.createEntry
  dsimp only
  split
  · exact hdata
  · rename_i hcheck
    split
    · exact hdata
    · rename_i hsane
      rw [Bool.not_eq_true, Bool.not_eq_false'] at hcheck hsane
      refine hdata.trans (safe_makeEntry hdots (hrooted.of_safe hdata) hne hnul hcheck hsane fun hnil => ?_)
      rw [hdata.rootFolder] at hnil
      rw [TarStream.checkFilter, hdata.filters, ← TarStream.checkFilter] at hcheck
      by_contra habsolute
      exact hescape ⟨hnil, by simpa using habsolute, hcheck, hsane⟩

/-! ## One block -/

theorem zero_not_mem_fieldText (block : List Uint8) (pos maxLen : ℕ) :
    (0 : Uint8) ∉ TarStream.fieldText block pos maxLen := by
  intro hmem
  have hne := List.mem_takeWhile_imp hmem
  simp at hne

theorem zero_not_mem_pathname (block : List Uint8) : (0 : Uint8) ∉ (TarStream.readHeader block).pathname := by
  have hname := zero_not_mem_fieldText block 0 100
  unfold TarStream.readHeader
  dsimp only
  split
  · rw [List.mem_append, not_or]
    exact ⟨zero_not_mem_fieldText _ _ _, hname⟩
  · exact hname

theorem pathname_ne_nil {block : List Uint8} (h : (TarStream.readHeader block).name ≠ []) :
    (TarStream.readHeader block).pathname ≠ [] := by
  unfold TarStream.readHeader at h ⊢
  dsimp only at h ⊢
  split
  · exact List.append_ne_nil_of_right_ne_nil _ h
  · exact h

theorem safe_processEmptyBlock (s : TarStream φ) (start : ℕ) : Safe s (s.processEmptyBlock start).2 := by
  unfold TarStream.processEmptyBlock
  split
  · exact .of_same rfl rfl rfl rfl
  · split
    · exact .refl s
    · exact .refl s

/-- The header of an entry that escapes. -/
def HeaderEscapes (s : TarStream φ) : Prop :=
  s.blockPos = blockSize ∧ s.nextBlock = .fileHeader ∧ (TarStream.readHeader s.block).name ≠ [] ∧
    (s.block.drop (TarStream.readHeader s.block).blockData).all (· = 0) = true ∧
    Escapes s (TarStream.readHeader s.block)

theorem safe_writeNextFile (hdots : fs.RefusesDots) (hrooted : Rooted s) (hmode : s.mode = .write)
    (hescape : (TarStream.readHeader s.block).name ≠ [] →
      (s.block.drop (TarStream.readHeader s.block).blockData).all (· = 0) = true →
      ¬ Escapes s (TarStream.readHeader s.block)) :
    Safe s (s.writeNextFile fs).2 := by
  unfold TarStream.writeNextFile
  dsimp only
  generalize hs₁ : (TarStream.assert (TarStream.assert s _) _ : TarStream φ) = s₁
  have hsame : Safe s s₁ := hs₁ ▸ .of_same rfl rfl rfl rfl
  have hblock : s₁.block = s.block := hs₁ ▸ rfl
  have hblock' : ∀ c, (s.assert c).block = s.block := fun _ => rfl
  simp only [hblock']
  split
  · exact hsame
  · rename_i hname
    unfold TarStream.processEmptyBlock
    rw [hsame.mode, hmode]
    dsimp only
    split_ifs with hempty
    · rw [hblock] at hempty
      refine hsame.trans (extracted_createEntry hdots (hrooted.of_safe hsame) (pathname_ne_nil hname)
        (zero_not_mem_pathname _) fun hesc => hescape hname hempty ?_)
      exact ⟨hsame.rootFolder ▸ hesc.1, hesc.2.1, by
        rw [TarStream.checkFilter, ← hsame.filters]
        exact hesc.2.2.1, hesc.2.2.2⟩
    · exact hsame

theorem safe_processData (s : TarStream φ) : Safe s (s.processData fs).2 := by
  unfold TarStream.processData
  dsimp only
  split
  · split
    · exact .of_same rfl rfl rfl rfl
    · exact .of_same rfl rfl rfl rfl
  · exact .of_same rfl rfl rfl rfl
  · split
    · exact .of_same rfl rfl rfl rfl
    · exact .of_same rfl rfl rfl rfl
  · exact .refl s

theorem safe_processTrailer (s : TarStream φ) : Safe s s.processTrailer.2 := by
  have hempty := safe_processEmptyBlock s 0
  unfold TarStream.processTrailer
  split
  · rename_i heq
    rw [heq] at hempty
    exact hempty.trans (.of_same rfl rfl rfl rfl)
  · exact hempty

theorem safe_processDataBlock (s : TarStream φ) : Safe s (s.processDataBlock fs).2 := by
  have hdata : Safe s (s.processData fs).2 := safe_processData s
  unfold TarStream.processDataBlock
  split
  · rename_i s₁ heq
    rw [heq] at hdata
    let s₂ := { s₁ with currentBytes := s₁.currentBytes - min blockSize s₁.currentBytes }
    have hcount : Safe s s₂ := hdata.trans (.of_same rfl rfl rfl rfl)
    have hempty := safe_processEmptyBlock s₂ (min blockSize s₁.currentBytes)
    dsimp only
    split
    · split
      · rename_i hzero
        rw [hzero] at hempty
        exact hcount.trans (hempty.trans (.of_same rfl rfl rfl rfl))
      · exact hcount.trans hempty
    · exact hcount.trans (.of_same rfl rfl rfl rfl)
  · exact hdata

theorem safe_processFileHeader (hdots : fs.RefusesDots) (hrooted : Rooted s) (hmode : s.mode = .write)
    (hpos : s.blockPos = blockSize) (hkind : s.nextBlock = .fileHeader) (hescape : ¬ HeaderEscapes s) :
    Safe s (s.processFileHeader fs).2 := by
  have hfile : Safe s (s.writeNextFile fs).2 :=
    safe_writeNextFile hdots hrooted hmode fun hname hrest hesc =>
      hescape ⟨hpos, hkind, hname, hrest, hesc⟩
  unfold TarStream.processFileHeader
  rw [if_neg (by rw [hmode]; decide)]
  split
  · rename_i heq
    rw [heq] at hfile
    exact hfile.trans (.of_same rfl rfl rfl rfl)
  · rename_i s₁ heq
    rw [heq] at hfile
    let s₂ := { s₁ with nextBlock := .trailer }.nextBlockStarts
    have htrailer : Safe s s₂ := hfile.trans (.of_same rfl rfl rfl rfl)
    have hempty := safe_processEmptyBlock s₂ 0
    split
    · rename_i hzero
      rw [hzero] at hempty
      exact htrailer.trans (hempty.trans (.of_same rfl rfl rfl rfl))
    · exact htrailer.trans hempty
  · exact hfile

theorem safe_processNextBlock (hdots : fs.RefusesDots) (hrooted : Rooted s) (hmode : s.mode = .write)
    (hpos : s.blockPos = blockSize) (hescape : ¬ HeaderEscapes s) : Safe s (s.processNextBlock fs).2 := by
  have hbegin : Safe s s.beginBlock := .of_same rfl rfl rfl rfl
  unfold TarStream.processNextBlock
  split
  · exact hbegin
  · exact hbegin.trans (safe_processTrailer _)
  · rename_i hkind
    exact hbegin.trans (safe_processFileHeader hdots (hrooted.of_safe hbegin) hmode hpos hkind hescape)
  · exact hbegin.trans (safe_processDataBlock _)

/-! ## Runs -/

/-- No full block is the header of an escaping entry. -/
def StaysInside (fs : FileSystem φ) (s : TarStream φ) (data : List Uint8) : Prop :=
  s.mode = .write → ∀ pre b, pre ++ [b] <+: data → (s.writeBytes fs pre).1 = .success →
    ¬ HeaderEscapes (s.writeBytes fs pre).2

theorem safe_putByte (s : TarStream φ) (b : Uint8) : Safe s (s.putByte b) := .of_same rfl rfl rfl rfl

theorem safe_writeBytes (hdots : fs.RefusesDots) {data : List Uint8} (hrooted : Rooted s)
    (hmode : s.mode = .write) (hstays : StaysInside fs s data) : Safe s (s.writeBytes fs data).2 := by
  induction data generalizing s with
  | nil => exact .refl s
  | cons b data ih =>
    have hfirst : ¬ HeaderEscapes s := hstays hmode [] b ⟨data, rfl⟩ rfl
    rw [TarStream.writeBytes]
    split
    · rename_i hpos
      have hblock := safe_processNextBlock hdots hrooted hmode hpos hfirst
      split
      · rename_i s' heq
        rw [heq] at hblock
        have hput := hblock.trans (safe_putByte s' b)
        refine hput.trans (ih (hrooted.of_safe hput) (hput.mode.trans hmode)
          fun _ pre b' hpre hsuccess => ?_)
        have hstep : s.writeBytes fs (b :: pre) = (s'.putByte b).writeBytes fs pre := by
          rw [TarStream.writeBytes, if_pos hpos, heq]
        have := hstays hmode (b :: pre) b' (List.cons_prefix_cons.mpr ⟨rfl, hpre⟩)
        rw [hstep] at this
        exact this hsuccess
      · exact hblock
    · rename_i hpos
      have hput := safe_putByte s b
      refine hput.trans (ih (hrooted.of_safe hput) (hput.mode.trans hmode)
        fun _ pre b' hpre hsuccess => ?_)
      have hstep : s.writeBytes fs (b :: pre) = (s.putByte b).writeBytes fs pre := by
        rw [TarStream.writeBytes, if_neg hpos]
      have := hstays hmode (b :: pre) b' (List.cons_prefix_cons.mpr ⟨rfl, hpre⟩)
      rw [hstep] at this
      exact this hsuccess

def writeStep (fs : FileSystem φ) (s : TarStream φ) (data : List Uint8) : TarStream φ := (s.write fs data).2

theorem safe_writeStep (hdots : fs.RefusesDots) (hrooted : Rooted s) {data : List Uint8}
    (hstays : StaysInside fs s data) : Safe s (writeStep fs s data) := by
  unfold writeStep TarStream.write
  split
  · rename_i hmode
    exact safe_writeBytes hdots hrooted hmode hstays
  · exact .refl s

theorem rooted_rootOf (folder : List Uint8) :
    IsFolder (TarStream.rootOf folder) ∧ Clean (TarStream.rootOf folder) := by
  have hdelim : (Pathname.setFolder {} folder).folderDelimiter = slash := by
    unfold Pathname.setFolder
    split <;> rfl
  unfold TarStream.rootOf
  rw [Pathname.normalize, hdelim]
  refine ⟨?_, clean_map_normalize⟩
  unfold Pathname.setFolder
  split
  · rename_i hnone
    left
    simp [List.getLast?_eq_none_iff.mp hnone]
  · rename_i ch hch
    right
    simp only
    split
    · rename_i hfolder
      simp [hch, hfolder]
    · simp

def openedFor (fs : FileSystem φ) (files : φ) (filters : List (List Uint8)) (folder : List Uint8) :
    TarStream φ :=
  ((filters.foldl TarStream.addFilter { files := files }).openWrite fs folder).2

theorem openedFor_spec (fs : FileSystem φ) (files : φ) (filters : List (List Uint8)) (folder : List Uint8) :
    (openedFor fs files filters folder).rootFolder = TarStream.rootOf folder ∧
      (openedFor fs files filters folder).created = [] := by
  have hkeeps : ∀ s : TarStream φ, (filters.foldl TarStream.addFilter s).close.created = s.created := by
    induction filters with
    | nil => exact fun _ => rfl
    | cons filter filters ih =>
      intro s
      rw [List.foldl_cons, ih, TarStream.addFilter]
      split <;> rfl
  have hclosed := hkeeps { files := files }
  unfold openedFor TarStream.openWrite
  generalize (filters.foldl TarStream.addFilter { files := files } : TarStream φ).close = s at hclosed
  dsimp only
  split
  · exact ⟨rfl, hclosed⟩
  · exact ⟨rfl, hclosed⟩

theorem rooted_openedFor (fs : FileSystem φ) (files : φ) (filters : List (List Uint8))
    (folder : List Uint8) : Rooted (openedFor fs files filters folder) := by
  obtain ⟨hroot, -⟩ := openedFor_spec fs files filters folder
  exact ⟨hroot ▸ (rooted_rootOf folder).1, hroot ▸ (rooted_rootOf folder).2⟩

theorem staysInside_of_root (hdots : fs.RefusesDots) (hrooted : Rooted s) (hroot : s.rootFolder ≠ [])
    (data : List Uint8) : StaysInside fs s data := by
  intro hmode pre b hpre _ hesc
  induction hn : pre.length using Nat.strong_induction_on generalizing pre b with
  | _ n ih =>
    have hsafe : Safe s (s.writeBytes fs pre).2 := by
      refine safe_writeBytes hdots hrooted hmode fun _ pre' b' hpre' hsuccess' hesc' => ?_
      have hlt := hpre'.length_le
      rw [List.length_append, List.length_singleton] at hlt
      exact ih pre'.length (by omega) pre' b' (hpre'.trans ((List.prefix_append _ _).trans hpre))
        hsuccess' hesc' rfl
    exact hroot (hsafe.rootFolder ▸ hesc.2.2.2.2.1)

theorem guarded_of_root (hdots : fs.RefusesDots) (hrooted : Rooted s) (hroot : s.rootFolder ≠ [])
    (writes : List (List Uint8)) : Guarded (writeStep fs) (StaysInside fs) s writes := by
  induction writes generalizing s with
  | nil => trivial
  | cons data writes ih =>
    have hstays := staysInside_of_root hdots hrooted hroot data
    have hsafe := safe_writeStep hdots hrooted hstays
    exact ⟨hstays, ih (hrooted.of_safe hsafe) (by rwa [hsafe.rootFolder])⟩

/-- **Extraction stays inside its folder**, if no absolute path is taken under the empty root
folder. -/
theorem extraction_inside (fs : FileSystem φ) (hdots : fs.RefusesDots) (files : φ)
    (filters : List (List Uint8)) (folder : List Uint8) (writes : List (List Uint8))
    (hstays : Guarded (writeStep fs) (StaysInside fs) (openedFor fs files filters folder) writes) :
    ∀ c ∈ (run (writeStep fs) (openedFor fs files filters folder) writes).created,
      Extracted (openedFor fs files filters folder).filters (TarStream.rootOf folder) c := by
  obtain ⟨hroot, hcreated⟩ := openedFor_spec fs files filters folder
  have hrooted := rooted_openedFor fs files filters folder
  have hsafe : Safe (openedFor fs files filters folder)
      (run (writeStep fs) (openedFor fs files filters folder) writes) :=
    run_invariant (I := Safe (openedFor fs files filters folder))
      (fun s data hs h => hs.trans (safe_writeStep hdots (hrooted.of_safe hs) h)) (.refl _) hstays
  intro c hc
  rw [← hroot]
  refine (hsafe.created c hc).resolve_left fun hmem => ?_
  rw [hcreated] at hmem
  cases hmem

end Steps

def exampleFiles : FileSystem Unit where
  createFolder files _ := (true, files)
  openWrite files path :=
    (lastComponent slash path ≠ [extDelim] ∧ lastComponent slash path ≠ parent extDelim, files)
  write files _ data := (some data.length, files)
  iterate _ _ := none
  openRead _ _ := none

theorem refusesDots_exampleFiles : exampleFiles.RefusesDots := by
  intro files path h
  simp only [exampleFiles, decide_eq_false_iff_not]
  tauto

def exampleArchive (path : List Uint8) : List Uint8 := path ++ List.replicate (513 - path.length) 0

def exampleHeader : List Uint8 := [0x2F, 0x78] ++ List.replicate 510 0

theorem run_exampleArchive (folder : List Uint8) :
    run (writeStep exampleFiles) (openedFor exampleFiles () [] folder) [exampleArchive [0x2F, 0x78]] =
      (TarStream.writeBytes exampleFiles
        { openedFor exampleFiles () [] folder with block := exampleHeader, blockPos := blockSize } [0]).2 := by
  have hwritten : exampleArchive [0x2F, 0x78] = exampleHeader ++ [0] := by
    rw [exampleArchive, exampleHeader, List.append_assoc, ← List.replicate_succ']
    rfl
  have hlength : exampleHeader.length = blockSize := by
    rw [exampleHeader, List.length_append, List.length_replicate]
    rfl
  obtain ⟨block, hfill, hlen, htake⟩ := TarStream.writeBytes_fill exampleFiles
    (openedFor exampleFiles () [] folder) exampleHeader List.length_replicate
    (by rw [hlength]; exact (Nat.zero_add _).le)
  have hpos : (openedFor exampleFiles () [] folder).blockPos + exampleHeader.length = blockSize := by
    rw [hlength]
    exact Nat.zero_add _
  rw [hpos, ← hlen, List.take_length] at htake
  obtain rfl : block = exampleHeader := htake
  rw [hpos] at hfill
  have hmode : (openedFor exampleFiles () [] folder).mode = .write := rfl
  rw [hwritten, run_cons, run_nil, writeStep, TarStream.write, if_pos hmode, TarStream.writeBytes_append hfill]

/-- Under a root folder, an absolute path stays inside. -/
theorem extraction_inside_example :
    Extracted [] (TarStream.rootOf [0x72]) (.file [0x2F, 0x78] (TarStream.rootOf [0x72] ++ [0x2F, 0x78])) :=
  extraction_inside exampleFiles refusesDots_exampleFiles () [] [0x72] [exampleArchive [0x2F, 0x78]]
    (guarded_of_root refusesDots_exampleFiles (rooted_openedFor _ _ _ _) (by decide) _) _
    (by rw [run_exampleArchive]; decide +kernel)

/-- **Under the empty root folder an absolute path escapes.** -/
theorem extraction_escapes :
    (run (writeStep exampleFiles) (openedFor exampleFiles () [] []) [exampleArchive [0x2F, 0x78]]).created =
        [.file [0x2F, 0x78] [0x2F, 0x78]] ∧
      ¬ InsideRoot (TarStream.rootOf []) [0x2F, 0x78] := by
  refine ⟨?_, not_inside_of_isAbsolute (by decide)⟩
  rw [run_exampleArchive]
  decide +kernel

end Libjingle.Tar
