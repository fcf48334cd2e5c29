import YohakuCore.Capture.Media
import YohakuCore.Framework.Utf8
import YohakuCore.Privacy.Evaluator

/-!
# The foreground application and the media of one program

The watcher identifies a program by the file name of its path, a media session by its whole source.
-/

namespace YohakuCore

open Framework

structure RawForegroundSample where
  windowTitle : Option String
  exePath : Option String
  deriving DecidableEq

variable (u : UnicodeData)

/-- The file name without its `.exe`. The slice of the last four bytes panics, which is no value,
where it begins within a character. -/
def exeStem (base : List Char) : Option (List Char) :=
  if 4 ≤ Utf8.byteLength base then do
    let (front, suffix) ← Utf8.splitAt? base (Utf8.byteLength base - 4)
    return if suffix.map Char.toLower = ['.', 'e', 'x', 'e'] then front else base
  else some base

/-- The capitalized stem of an executable; an empty stem leaves the argument as it is. -/
def exeStemDisplayName (toUppercase : Char → String) (exePathOrAppId : String) : Option String := do
  let stem ← exeStem (winBasename exePathOrAppId).toList
  return match stem with
    | [] => exePathOrAppId
    | first :: rest => toUppercase first ++ String.ofList rest

/-- The sample as the application it shows; without a path, or with one that ends in a separator,
the last application is kept. The display name comes from a cache of file descriptions. -/
def currentShared (displayNameFor : String → String → String) (last : Option ForegroundInfo)
    (raw : Option RawForegroundSample) : Option ForegroundInfo :=
  match raw with
  | some { windowTitle, exePath := some exePath } =>
      let appId := u.toLowercase (winBasename exePath)
      if appId = "" then last
      else some { appId, displayName := displayNameFor exePath appId, windowTitle }
  | _ => last

/-- What normalization does to paths: separators and U+0085 are neither made nor lost, leading
white space stays in front of the rest, and no character is lowercased to nothing. -/
structure UnicodeData.PathClosed (u : UnicodeData) : Prop where
  nfc_count : ∀ c ∈ ['\\', '/', Char.ofNat 0x85], ∀ s,
    (u.nfc s).toList.count c = s.toList.count c
  toLowercase_count : ∀ c ∈ ['\\', '/', Char.ofNat 0x85], ∀ s,
    (u.toLowercase s).toList.count c = s.toList.count c
  nfc_space : ∀ c, isJsWhitespace c = true → ∀ l, ∃ c', isJsWhitespace c' = true ∧
    (u.nfc (String.ofList (c :: l))).toList = c' :: (u.nfc (String.ofList l)).toList
  toLowercase_space : ∀ c, isJsWhitespace c = true → ∀ l,
    (u.toLowercase (String.ofList (c :: l))).toList =
      c :: (u.toLowercase (String.ofList l)).toList
  toLowercase_ne : ∀ s, s ≠ "" → u.toLowercase s ≠ ""

private theorem toLower_cases (a : Char) : a.toLower = a ∨
    65 ≤ a.toNat ∧ a.toNat ≤ 90 ∧ a.toLower.toNat = a.toNat + 32 := by
  unfold Char.toLower
  split
  · rename_i h
    refine Or.inr ⟨UInt32.le_iff_toNat_le.mp h.1, UInt32.le_iff_toNat_le.mp h.2, ?_⟩
    have hle : a.val.toNat ≤ 90 := UInt32.le_iff_toNat_le.mp h.2
    simp only [Char.toNat, UInt32.toNat_add]
    have hdiff : ('a'.val - 'A'.val).toNat = 32 := rfl
    rw [hdiff]
    omega
  · exact Or.inl rfl

private theorem toLower_eq_iff {a c : Char} (hupper : ¬ (65 ≤ c.toNat ∧ c.toNat ≤ 90))
    (hlower : ¬ (97 ≤ c.toNat ∧ c.toNat ≤ 122)) : a.toLower = c ↔ a = c := by
  rcases toLower_cases a with hsame | ⟨hge, hle, hnext⟩
  · rw [hsame]
  · constructor
    · rintro rfl
      omega
    · rintro rfl
      omega

private theorem count_map_toLower {c : Char} (hupper : ¬ (65 ≤ c.toNat ∧ c.toNat ≤ 90))
    (hlower : ¬ (97 ≤ c.toNat ∧ c.toNat ≤ 122)) (l : List Char) :
    (l.map Char.toLower).count c = l.count c := by
  induction l with
  | nil => rfl
  | cons a l ih =>
      rw [List.map_cons, List.count_cons, List.count_cons, ih]
      simp only [beq_iff_eq, toLower_eq_iff hupper hlower]

private theorem toLower_space {c : Char} (h : isJsWhitespace c = true) : c.toLower = c := by
  rcases toLower_cases c with hsame | ⟨hge, hle, -⟩
  · exact hsame
  · simp [isJsWhitespace] at h
    omega

theorem UnicodeData.ascii_pathClosed : UnicodeData.ascii.PathClosed where
  nfc_count _ _ _ := rfl
  toLowercase_count c hc s := by
    simp only [UnicodeData.ascii, String.toList_ofList]
    simp only [List.mem_cons, List.not_mem_nil, or_false] at hc
    rcases hc with rfl | rfl | rfl <;> exact count_map_toLower (by decide) (by decide) _
  nfc_space c hc l := ⟨c, hc, by simp [UnicodeData.ascii]⟩
  toLowercase_space c hc l := by simp [UnicodeData.ascii, toLower_space hc]
  toLowercase_ne s hs h := by
    have hnil : s.toList.map Char.toLower = [] := by
      rw [← String.toList_ofList (l := s.toList.map Char.toLower)]
      exact congrArg String.toList h
    exact hs (String.toList_eq_nil_iff.mp (List.map_eq_nil_iff.mp hnil))

section Counting

variable {u} (hu : u.PathClosed) {c : Char}

private theorem count_trim {p : Char → Bool} (hp : p c = false) (l : List Char) :
    ((l.dropWhile p).rdropWhile p).count c = l.count c := by
  have hdrop : ∀ m : List Char, (m.dropWhile p).count c = m.count c := by
    intro m
    induction m with
    | nil => rfl
    | cons a m ih =>
        rw [List.dropWhile_cons]
        split
        · rename_i ha
          have hne : a ≠ c := by
            rintro rfl
            rw [hp] at ha
            contradiction
          rw [ih, List.count_cons_of_ne hne]
        · rfl
  rw [List.rdropWhile, List.count_reverse, hdrop, List.count_reverse, hdrop]

include hu in
theorem count_normalizeAppId (hc : c ∈ ['\\', '/', Char.ofNat 0x85]) (s : String) :
    (normalizeAppId u s).toList.count c = s.toList.count c := by
  have hspace : isJsWhitespace c = false := by
    simp only [List.mem_cons, List.not_mem_nil, or_false] at hc
    rcases hc with rfl | rfl | rfl <;> decide
  rw [normalizeAppId, hu.toLowercase_count c hc, jsTrim, String.toList_ofList,
    count_trim hspace, hu.nfc_count c hc]

include hu in
theorem normalizeAppId_space {w : List Char} (hw : ∀ c ∈ w, isJsWhitespace c = true)
    (l : List Char) : normalizeAppId u (u.toLowercase (String.ofList (w ++ l))) =
      normalizeAppId u (u.toLowercase (String.ofList l)) := by
  induction w with
  | nil => rfl
  | cons c w ih =>
      have hc := hw c List.mem_cons_self
      have hrest := ih (fun c hc => hw c (List.mem_cons_of_mem _ hc))
      rw [← hrest]
      have hlower := hu.toLowercase_space c hc (w ++ l)
      obtain ⟨c', hc', hnfc⟩ := hu.nfc_space c hc (u.toLowercase (String.ofList (w ++ l))).toList
      rw [String.ofList_toList] at hnfc
      have hfirst : u.toLowercase (String.ofList (c :: w ++ l)) =
          String.ofList (c :: (u.toLowercase (String.ofList (w ++ l))).toList) := by
        rw [← hlower, String.ofList_toList]
        rfl
      rw [normalizeAppId, normalizeAppId, hfirst]
      apply congrArg u.toLowercase
      rw [jsTrim, jsTrim, hnfc, List.dropWhile_cons, if_pos hc']

end Counting

private theorem exe_char {c : Char} (h : c.toLower ∈ ['.', 'e', 'x', 'e']) :
    isRustWhitespace c = false ∧ isPathSeparator c = false := by
  have hnat : c.toNat ∈ [46, 101, 120, 69, 88] := by
    have hmap := List.mem_map_of_mem (f := Char.toNat) h
    have hlow : c.toLower.toNat = 46 ∨ c.toLower.toNat = 101 ∨ c.toLower.toNat = 120 := by
      simp at hmap
      omega
    simp only [List.mem_cons, List.not_mem_nil, or_false]
    rcases toLower_cases c with hsame | ⟨hge, hle, hnext⟩
    · rw [hsame] at hlow
      omega
    · omega
  have hc : c = Char.ofNat c.toNat := (Char.ofNat_toNat c).symm
  simp only [List.mem_cons, List.not_mem_nil, or_false] at hnat
  rw [hc]
  rcases hnat with h | h | h | h | h <;> rw [h] <;> decide

theorem exe_split {s : String} (h : endsWithExe s = true) :
    ∃ x e, s.toList = x ++ e ∧ e.map Char.toLower = ['.', 'e', 'x', 'e'] ∧
      ∀ c ∈ e, isRustWhitespace c = false ∧ isPathSeparator c = false := by
  have hmap := of_decide_eq_true h
  refine ⟨_, _, (List.take_append_drop (s.toList.length - 4) s.toList).symm, hmap, ?_⟩
  intro c hc
  exact exe_char (hmap ▸ List.mem_map_of_mem hc)

theorem endsWithExe_append {x e : List Char} (h : e.map Char.toLower = ['.', 'e', 'x', 'e']) :
    endsWithExe (String.ofList (x ++ e)) = true := by
  have hlen : e.length = 4 := by
    rw [← List.length_map Char.toLower, h]
    rfl
  have hdrop : (x ++ e).length - 4 = x.length := by
    rw [List.length_append, hlen, Nat.add_sub_cancel]
  rw [endsWithExe, String.toList_ofList, hdrop, List.drop_left, h]
  rfl

theorem rustTrim_exe {s : String} (h : endsWithExe s = true) :
    (rustTrim s).toList = s.toList.dropWhile isRustWhitespace ∧
      endsWithExe (rustTrim s) = true := by
  obtain ⟨x, e, hs, hmap, he⟩ := exe_split h
  have hne : e ≠ [] := by
    rintro rfl
    contradiction
  have hkept : ∃ y, s.toList.dropWhile isRustWhitespace = y ++ e := by
    rw [hs, List.dropWhile_append]
    split
    · refine ⟨[], ?_⟩
      cases e with
      | nil => contradiction
      | cons c e => simp [(he c List.mem_cons_self).1]
    · exact ⟨_, rfl⟩
  obtain ⟨y, hy⟩ := hkept
  have hlast : (y ++ e).rdropWhile isRustWhitespace = y ++ e := by
    rw [List.rdropWhile_eq_self_iff]
    intro hnil
    rw [List.getLast_append_of_ne_nil hnil hne, (he _ (List.getLast_mem hne)).1]
    simp
  have htrim : rustTrim s = String.ofList (y ++ e) := by
    rw [rustTrim, hy, hlast]
  rw [htrim, hy]
  exact ⟨String.toList_ofList, endsWithExe_append hmap⟩

theorem endsWithExe_winBasename {p : String} (h : endsWithExe p = true) :
    endsWithExe (winBasename p) = true := by
  obtain ⟨x, e, hp, hmap, he⟩ := exe_split h
  have hbase : winBasename p =
      String.ofList (x.rtakeWhile (fun c => !isPathSeparator c) ++ e) := by
    rw [winBasename, hp, List.rtakeWhile, List.reverse_append, List.takeWhile_append_of_pos,
      List.reverse_append, List.reverse_reverse]
    · rfl
    · intro c hc
      simp [(he c (List.mem_reverse.mp hc)).2]
  rw [hbase]
  exact endsWithExe_append hmap

theorem winBasename_separator {p : String} {c : Char} (h : c ∈ (winBasename p).toList) :
    isPathSeparator c = false := by
  rw [winBasename, String.toList_ofList] at h
  simpa using List.mem_rtakeWhile_imp h

theorem winBasename_eq_self {p : String} (h : ∀ c ∈ p.toList, isPathSeparator c = false) :
    winBasename p = p := by
  have hall : p.toList.rtakeWhile (fun c => !isPathSeparator c) = p.toList :=
    List.rtakeWhile_eq_self_iff.mpr (fun c hc => by simp [h c hc])
  rw [winBasename, hall, String.ofList_toList]

/-- The source is one identity with the file name: it has no separator, and the white space in
front of it is white space of ECMAScript too. -/
structure PlainSource (source : String) : Prop where
  separators : ∀ c ∈ source.toList, isPathSeparator c = false
  spaces : Char.ofNat 0x85 ∉ source.toList.takeWhile isRustWhitespace

private theorem isJsWhitespace_of_rust {c : Char} (h : isRustWhitespace c = true)
    (hne : c ≠ Char.ofNat 0x85) : isJsWhitespace c = true := by
  have hnat : c.toNat ≠ 0x85 := by
    intro hc
    exact hne (by rw [← hc, Char.ofNat_toNat])
  simp only [isRustWhitespace, isJsWhitespace, Bool.or_eq_true, Bool.and_eq_true,
    decide_eq_true_eq, List.contains_eq_mem, List.mem_cons, List.not_mem_nil, or_false] at h ⊢
  omega

variable {u}

/-- The identities derived from a path and from a source agree exactly for plain sources. -/
theorem normalizeAppId_source_iff (hu : u.PathClosed) {p source : String}
    (hexe : endsWithExe p = true) (hsource : source = p ∨ source = winBasename p) :
    normalizeAppId u (u.toLowercase (rustTrim source)) =
        normalizeAppId u (u.toLowercase (winBasename p)) ↔ PlainSource source := by
  have hsourceExe : endsWithExe source = true := by
    rcases hsource with rfl | rfl
    · exact hexe
    · exact endsWithExe_winBasename hexe
  have hbase : (∀ c ∈ source.toList, isPathSeparator c = false) → winBasename p = source := by
    intro hplain
    rcases hsource with rfl | rfl
    · exact winBasename_eq_self hplain
    · rfl
  have hcount : ∀ c ∈ ['\\', '/', Char.ofNat 0x85], ∀ s : String,
      (normalizeAppId u (u.toLowercase s)).toList.count c = s.toList.count c := by
    intro c hc s
    rw [count_normalizeAppId hu hc, hu.toLowercase_count c hc]
  constructor
  · intro h
    have hsame : ∀ c ∈ ['\\', '/', Char.ofNat 0x85],
        (rustTrim source).toList.count c = (winBasename p).toList.count c := by
      intro c hc
      rw [← hcount c hc, h, hcount c hc]
    have hseparators : ∀ c ∈ source.toList, isPathSeparator c = false := by
      intro c hc
      by_contra hsep
      have hsep : isPathSeparator c = true := by simpa using hsep
      have hmem : c ∈ ['\\', '/', Char.ofNat 0x85] := by
        simp only [isPathSeparator, Bool.or_eq_true, decide_eq_true_eq] at hsep
        simp only [List.mem_cons]
        tauto
      have hspace : isRustWhitespace c = false := by
        simp only [isPathSeparator, Bool.or_eq_true, decide_eq_true_eq] at hsep
        rcases hsep with rfl | rfl <;> decide
      have hnone : (winBasename p).toList.count c = 0 := by
        rw [List.count_eq_zero]
        intro hin
        rw [winBasename_separator hin] at hsep
        exact Bool.false_ne_true hsep
      have hzero := hsame c hmem
      rw [rustTrim, String.toList_ofList, count_trim hspace, hnone, List.count_eq_zero] at hzero
      exact hzero hc
    refine ⟨hseparators, ?_⟩
    have htotal := hsame (Char.ofNat 0x85) (by simp)
    rw [hbase hseparators, (rustTrim_exe hsourceExe).1] at htotal
    have hsplit : source.toList.count (Char.ofNat 0x85) =
        (source.toList.takeWhile isRustWhitespace).count (Char.ofNat 0x85) +
          (source.toList.dropWhile isRustWhitespace).count (Char.ofNat 0x85) := by
      rw [← List.count_append, List.takeWhile_append_dropWhile]
    exact List.count_eq_zero.mp (by omega)
  · rintro ⟨hseparators, hspaces⟩
    rw [hbase hseparators]
    have hw : ∀ c ∈ source.toList.takeWhile isRustWhitespace, isJsWhitespace c = true := by
      intro c hc
      have hne : c ≠ Char.ofNat 0x85 := by
        rintro rfl
        exact hspaces hc
      exact isJsWhitespace_of_rust (List.mem_takeWhile_imp hc) hne
    have htrim := normalizeAppId_space hu hw (source.toList.dropWhile isRustWhitespace)
    rw [List.takeWhile_append_dropWhile, String.ofList_toList] at htrim
    rw [htrim, ← (rustTrim_exe hsourceExe).1, String.ofList_toList]

theorem ne_empty_of_exe {s : String} (h : endsWithExe s = true) : s ≠ "" := by
  rintro rfl
  contradiction

theorem frameToSnapshot_appId {floats : Floats} {exeDisplayName : String → String}
    {frame : RawFrame} {nowMs : Int} (hexe : endsWithExe frame.sourceAppId = true) :
    (frameToSnapshot u floats exeDisplayName frame nowMs).bind MediaSnapshot.appId =
      some (u.toLowercase (rustTrim frame.sourceAppId)) := by
  have htrim := (rustTrim_exe hexe).2
  simp [frameToSnapshot, ne_empty_of_exe htrim, appIdFromSource, htrim]

theorem currentShared_appId (hu : u.PathClosed) {displayNameFor : String → String → String}
    {last : Option ForegroundInfo} {p : String} {windowTitle : Option String}
    (hexe : endsWithExe p = true) :
    (currentShared u displayNameFor last (some ⟨windowTitle, some p⟩)).map
      ForegroundInfo.appId = some (u.toLowercase (winBasename p)) := by
  have hne := hu.toLowercase_ne _ (ne_empty_of_exe (endsWithExe_winBasename hexe))
  simp [currentShared, hne]

/-- A media session whose source is the path of an executable, or its file name, has the identity
of the foreground application running from that path, and every rule list decides both by one
rule, exactly when the source is plain. -/
theorem one_identity_iff (hu : u.PathClosed) {floats : Floats}
    {exeDisplayName : String → String} {displayNameFor : String → String → String}
    {last : Option ForegroundInfo} {windowTitle : Option String} {nowMs : Int} {p : String}
    {frame : RawFrame} (hexe : endsWithExe p = true)
    (hsource : frame.sourceAppId = p ∨ frame.sourceAppId = winBasename p) :
    (∃ mediaId appId,
      (frameToSnapshot u floats exeDisplayName frame nowMs).bind MediaSnapshot.appId =
        some mediaId ∧
      (currentShared u displayNameFor last (some ⟨windowTitle, some p⟩)).map
        ForegroundInfo.appId = some appId ∧
      normalizeAppId u mediaId = normalizeAppId u appId ∧
      ∀ config playerName,
        mediaRule u config (some mediaId) playerName = findRule u config appId) ↔
    PlainSource frame.sourceAppId := by
  have hframe : endsWithExe frame.sourceAppId = true := by
    rcases hsource with h | h
    · exact h ▸ hexe
    · exact h ▸ endsWithExe_winBasename hexe
  rw [frameToSnapshot_appId hframe, currentShared_appId hu hexe,
    ← normalizeAppId_source_iff hu hexe hsource]
  constructor
  · rintro ⟨_, _, hmedia, happ, hsame, -⟩
    obtain rfl := Option.some.inj hmedia
    obtain rfl := Option.some.inj happ
    exact hsame
  · intro hsame
    refine ⟨_, _, rfl, rfl, hsame, ?_⟩
    intro config playerName
    rw [mediaRule, findRule, findRule, hsame]

def playerFrame (sourceAppId : String) : RawFrame where
  sourceAppId := sourceAppId
  title := "Title"
  artist := ""
  album := ""
  kind := .music
  playing := true
  durationSeconds := .finite 0
  positionSeconds := .finite 0
  updatedAtMs := 0

def playerPath : String := "C:\\Tools\\Player.EXE"

theorem one_identity_iff_player :
    ∃ mediaId appId,
      (frameToSnapshot .ascii .integral id (playerFrame "Player.EXE") 0).bind
        MediaSnapshot.appId = some mediaId ∧
      (currentShared .ascii (fun _ name => name) none (some ⟨none, some playerPath⟩)).map
        ForegroundInfo.appId = some appId ∧
      normalizeAppId .ascii mediaId = normalizeAppId .ascii appId ∧
      ∀ config playerName,
        mediaRule .ascii config (some mediaId) playerName = findRule .ascii config appId := by
  have hexe : endsWithExe playerPath = true := by decide +kernel
  have hbase : (playerFrame "Player.EXE").sourceAppId = winBasename playerPath := by
    decide +kernel
  have hall : (playerFrame "Player.EXE").sourceAppId.toList.all
      (fun c => isPathSeparator c = false) = true := by
    decide +kernel
  have hplain : PlainSource (playerFrame "Player.EXE").sourceAppId := by
    refine ⟨fun c hc => ?_, by decide +kernel⟩
    exact of_decide_eq_true (List.all_eq_true.mp hall c hc)
  exact (one_identity_iff UnicodeData.ascii_pathClosed hexe (Or.inr hbase)).mpr hplain

def hiddenPlayer : PrivacyConfig :=
  { defaultPrivacyConfig with
    rules := [{ appId := "player.exe", application := .hide, windowTitle := .hide, media := .hide,
                displayAlias := none }] }

/-- The rule for the program hides its application and not its media. -/
theorem player_path_two_identities :
    endsWithExe playerPath = true ∧
    (currentShared .ascii (fun _ name => name) none (some ⟨none, some playerPath⟩)).map
      ForegroundInfo.appId = some "player.exe" ∧
    ∃ mediaId, (frameToSnapshot .ascii .integral id (playerFrame playerPath) 0).bind
        MediaSnapshot.appId = some mediaId ∧
      normalizeAppId .ascii mediaId ≠ normalizeAppId .ascii "player.exe" ∧
      (processDecision .ascii hiddenPlayer "player.exe").sharesApplication = false ∧
      (mediaDecision .ascii hiddenPlayer (some mediaId) "Player").sharesMedia = true :=
  ⟨by decide +kernel, by decide +kernel, "c:\\tools\\player.exe", by decide +kernel,
    by decide +kernel, by decide +kernel, by decide +kernel⟩

end YohakuCore
