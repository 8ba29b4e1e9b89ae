import HtcLeo.GpsConf

/-!
# The order of the settings

A setting of `gps.conf` should not depend on where in the file it stands.
For a file that mentions each key at most once, as `KEY=value`, the four
settings with a flag are what the file says in every order, if the words
fit into `str`. The interval is looked for only while automatic download
is on, so it is lost when it stands before the word that turns this on
(`conf_settings_iff`). The flag of the precision is the byte behind
`CHECKED`; the precision is lost if that byte is set before.
-/

namespace HtcLeo

namespace ConfKey

/-- The key occurs in the word. -/
def mentions (k : ConfKey) (w : List Byte) : Bool := (strstr k.name (cstr w)).isSome

/-- The number behind `KEY=`. -/
def value (k : ConfKey) (w : List Byte) : Int := atoi ((cstr w).drop (k.name.length + 1))

/-- A value, if it is in range. -/
def put (k : ConfKey) (i old : Int) : Int := if k.inRange i then i else old

/-- No word can be `KEY=value` for two keys. -/
theorem eq_of_prefix {k k' : ConfKey} {l : List Byte} (h : k.name ++ [ch '='] <+: l)
    (h' : k'.name ++ [ch '='] <+: l) : k = k' := by
  have hnames : ∀ a ∈ all, ∀ b ∈ all,
      (a.name ++ [ch '=']).isPrefixOf (b.name ++ [ch '=']) = true → a = b := by decide
  rcases List.prefix_or_prefix_of_prefix h h' with hk | hk
  · exact hnames k k.mem_all k' k'.mem_all (List.isPrefixOf_iff_prefix.mpr hk)
  · exact (hnames k' k'.mem_all k k.mem_all (List.isPrefixOf_iff_prefix.mpr hk)).symm

end ConfKey

/-- The words of a file in which each key occurs at most once, and then as `KEY=value`. -/
structure ConfFile (ws : List (List Byte)) : Prop where
  form : ∀ k : ConfKey, ∀ w ∈ ws, k.mentions w = true → k.name ++ [ch '='] <+: cstr w
  once : ∀ k : ConfKey, (ws.filter k.mentions).length ≤ 1

theorem confFile_iff (ws : List (List Byte)) : ConfFile ws ↔
    ∀ k ∈ ConfKey.all,
      (∀ w ∈ ws, k.mentions w = true → (k.name ++ [ch '=']).isPrefixOf (cstr w) = true)
      ∧ (ws.filter k.mentions).length ≤ 1 := by
  simp only [List.isPrefixOf_iff_prefix]
  exact ⟨fun h k _ => ⟨h.form k, h.once k⟩,
    fun h => ⟨fun k => (h k k.mem_all).1, fun k => (h k k.mem_all).2⟩⟩

instance (ws : List (List Byte)) : Decidable (ConfFile ws) := decidable_of_iff' _ (confFile_iff ws)

/-- The value that a file has for a key. -/
def fileValue (ws : List (List Byte)) (k : ConfKey) : Option Int := (ws.find? k.mentions).map k.value

/-- The value in the file if that is in range, and the default otherwise. -/
def fileSetting (ws : List (List Byte)) (k : ConfKey) : Int :=
  (fileValue ws k).elim k.default fun i => k.put i k.default

/-- The settings that a file asks for; the interval counts when automatic download is on. -/
def intended (ws : List (List Byte)) (k : ConfKey) : Int :=
  if k = .interval ∧ fileSetting ws .autoDownload = 0 then k.default else fileSetting ws k

/-! ## The words of such a file -/

theorem ConfFile.perm {ws ws' : List (List Byte)} (h : ConfFile ws) (hperm : ws'.Perm ws) :
    ConfFile ws' := by
  refine ⟨fun k w hw => h.form k w (hperm.mem_iff.mp hw), fun k => ?_⟩
  rw [(hperm.filter _).length_eq]
  exact h.once k

/-- The order of the words does not change what the file says. -/
theorem ConfFile.fileValue_perm {ws ws' : List (List Byte)} (h : ConfFile ws)
    (hperm : ws'.Perm ws) (k : ConfKey) : fileValue ws' k = fileValue ws k := by
  have hfilter := hperm.filter k.mentions
  have hwords : ws'.filter k.mentions = ws.filter k.mentions := by
    have honce := h.once k
    cases hws : ws.filter k.mentions with
    | nil =>
        rw [hws] at hfilter
        exact hfilter.eq_nil
    | cons w rest =>
        rw [hws, List.length_cons] at honce
        obtain rfl : rest = [] := List.eq_nil_of_length_eq_zero (by omega)
        rw [hws] at hfilter
        exact List.perm_singleton.mp hfilter
  rw [fileValue, fileValue, ← List.head?_filter, ← List.head?_filter, hwords]

theorem ConfFile.fileSetting_perm {ws ws' : List (List Byte)} (h : ConfFile ws)
    (hperm : ws'.Perm ws) (k : ConfKey) : fileSetting ws' k = fileSetting ws k := by
  rw [fileSetting, fileSetting, h.fileValue_perm hperm]

theorem ConfFile.not_both {ws : List (List Byte)} (h : ConfFile ws) {w : List Byte} (hw : w ∈ ws)
    {k k' : ConfKey} (hk : k.mentions w = true) (hk' : k'.mentions w = true) : k = k' :=
  ConfKey.eq_of_prefix (h.form k w hw hk) (h.form k' w hw hk')

/-- Around the word that mentions a key no other word does. -/
theorem ConfFile.around {a b : List (List Byte)} {w : List Byte} (h : ConfFile (a ++ w :: b))
    {k : ConfKey} (hk : k.mentions w = true) :
    (∀ x ∈ a, k.mentions x = false) ∧ ∀ x ∈ b, k.mentions x = false := by
  have honce := h.once k
  rw [List.filter_append, List.filter_cons_of_pos hk, List.length_append, List.length_cons] at honce
  have hnone : ∀ l : List (List Byte), (l.filter k.mentions).length = 0 →
      ∀ x ∈ l, k.mentions x = false := by
    intro l hl x hx
    have hnil := List.eq_nil_of_length_eq_zero hl
    rw [List.filter_eq_nil_iff] at hnil
    simpa using hnil x hx
  exact ⟨hnone a (by omega), hnone b (by omega)⟩

theorem fileValue_none {ws : List (List Byte)} {k : ConfKey}
    (h : ∀ w ∈ ws, k.mentions w = false) : fileValue ws k = none := by
  rw [fileValue, List.find?_eq_none.mpr (by simpa using h)]
  rfl

theorem not_mentioned {ws : List (List Byte)} {k : ConfKey}
    (h : ¬∃ w ∈ ws, k.mentions w = true) : ∀ w ∈ ws, k.mentions w = false := by
  intro w hw
  simpa using fun hmentions => h ⟨w, hw, hmentions⟩

theorem find_mentioned {ws : List (List Byte)} {k : ConfKey}
    (h : ∃ w ∈ ws, k.mentions w = true) : ∃ w, ws.find? k.mentions = some w := by
  rw [← Option.isSome_iff_exists, List.find?_isSome]
  exact h

/-! ## A round on such a word -/

namespace GpsConf

/-- A block that looks for its key in a word `KEY=value` takes the value, or finds nothing. -/
theorem examine_word {c : GpsConf} {m : Mem} {w : List Byte} {k : ConfKey}
    (hstr : c.str = m.write 0 (w ++ [0]))
    (hform : k.mentions w = true → k.name ++ [ch '='] <+: cstr w) :
    (examine w.length c k).settings k
        = (if c.looksFor k = true ∧ k.mentions w = true then k.put (k.value w) (c.settings k)
          else c.settings k)
      ∧ (examine w.length c k).checked
        = if c.looksFor k = true ∧ k.mentions w = true then c.check k else c.checked := by
  have htext : ∀ log, textFrom { c with log := log } w.length 0 = cstr w := fun _ =>
    textFrom_word hstr (Nat.zero_le _)
  have hlooks : ∀ log, looksFor { c with log := log } k = c.looksFor k := fun _ => rfl
  unfold examine
  simp only [htext, hlooks]
  by_cases hlook : c.looksFor k = true
  · by_cases hword : k.mentions w = true
    · have hprefix := hform hword
      have hfound : strstr k.name (cstr w) = some 0 :=
        strstr_prefix ((List.prefix_append _ _).trans hprefix)
      have hvalue : ∀ log, atoi (textFrom { c with log := log } w.length (0 + k.name.length + 1))
          = k.value w := by
        intro log
        have hlen := hprefix.length_le
        rw [List.length_append, List.length_singleton] at hlen
        rw [textFrom_word (c := { c with log := log }) hstr (by omega), Nat.zero_add]
        rfl
      simp only [if_pos hlook, if_pos (And.intro hlook hword), hfound, hvalue]
      refine ⟨?_, rfl⟩
      rw [ConfKey.put]
      split
      · exact Function.update_self ..
      · rfl
    · have hnone : strstr k.name (cstr w) = none := by
        simpa [ConfKey.mentions] using hword
      simp [hlook, hword, hnone]
  · simp [hlook]

/-- The blocks around that of a key do not matter to it. -/
theorem parseWord_block (c : GpsConf) (w : List Byte) (k : ConfKey) :
    (parseWord c w).settings k = (examine w.length (c.atBlock w k) k).settings k
      ∧ (c.atBlock w k).settings k = c.settings k
      ∧ ∀ i, k.flag = some i → (parseWord c w).checked i
            = (examine w.length (c.atBlock w k) k).checked i
          ∧ (c.atBlock w k).checked i = c.checked i := by
  obtain ⟨before, after, hsplit⟩ := List.append_of_mem k.mem_all
  obtain ⟨hbefore, hnot, hnot'⟩ := all_split hsplit
  have hround : parseWord c w
      = after.foldl (examine w.length) (examine w.length (c.atBlock w k) k) := by
    rw [parseWord, hsplit, List.foldl_append, List.foldl_cons, hbefore]
    rfl
  obtain ⟨-, hset, hchecked⟩ := foldl_examine_frame w.length (c.readWord w) hnot
  obtain ⟨-, hset', hchecked'⟩ :=
    foldl_examine_frame w.length (examine w.length (c.atBlock w k) k) hnot'
  rw [hbefore] at hset hchecked
  rw [hround]
  exact ⟨hset', hset, fun i hi => ⟨hchecked' i hi, hchecked i hi⟩⟩

/-- The settings with a flag: the first word that mentions the key decides. -/
theorem parseWord_flagged {c : GpsConf} {w : List Byte} {k : ConfKey} {i : Nat}
    (hk : k.flag = some i) (hform : k.mentions w = true → k.name ++ [ch '='] <+: cstr w) :
    (parseWord c w).settings k
        = (if c.checked i = false ∧ k.mentions w = true then k.put (k.value w) (c.settings k)
          else c.settings k)
      ∧ (parseWord c w).checked i = (c.checked i || k.mentions w) := by
  obtain ⟨hset, hblock, hflags⟩ := parseWord_block c w k
  obtain ⟨hchecked, hchecked'⟩ := hflags i hk
  obtain ⟨hexam, hexam'⟩ := examine_word (c.atBlock_str w k) hform
  have hlook : (c.atBlock w k).looksFor k = !c.checked i := by
    rw [looksFor, hk, ← hchecked']
  simp only [hlook, Bool.not_eq_true'] at hexam hexam'
  refine ⟨by rw [hset, hexam, hblock], ?_⟩
  rw [hchecked, hexam']
  split
  · rename_i hfound
    rw [check_self hk, hfound.2, Bool.or_true]
  · rename_i hfound
    rw [hchecked']
    cases hc : c.checked i with
    | true => rfl
    | false =>
        have hword : k.mentions w = false := by simpa [hc] using hfound
        rw [hword]
        rfl

theorem not_mem_later :
    ConfKey.autoDownload ∉ [ConfKey.interval, .cleanup, .timeout, .precision] := by decide

/-- The interval: taken while automatic download is on, this word included. -/
theorem parseWord_interval {c : GpsConf} {w : List Byte}
    (hform : ConfKey.interval.mentions w = true → ConfKey.interval.name ++ [ch '='] <+: cstr w) :
    (parseWord c w).settings .interval
      = if (parseWord c w).settings .autoDownload ≠ 0 ∧ ConfKey.interval.mentions w = true then
          ConfKey.interval.put (ConfKey.interval.value w) (c.settings .interval)
        else c.settings .interval := by
  obtain ⟨hset, hblock, -⟩ := parseWord_block c w .interval
  obtain ⟨hexam, -⟩ := examine_word (c.atBlock_str w .interval) hform
  -- the blocks behind the first do not change the setting that the second tests
  have hauto : (parseWord c w).settings .autoDownload
      = (c.atBlock w .interval).settings .autoDownload :=
    (foldl_examine_frame w.length (c.atBlock w .interval) not_mem_later).2.1
  have hlook : (c.atBlock w .interval).looksFor .interval = true ↔
      (parseWord c w).settings .autoDownload ≠ 0 := by
    rw [hauto, looksFor]
    simp [ConfKey.flag]
  rw [hset, hexam, hblock]
  simp only [hlook]

end GpsConf

/-! ## The file -/

open GpsConf

/-- The settings with a flag are as the file asks, in any order. -/
theorem run_flagged (found : ConfMem) {ws : List (List Byte)}
    (hform : ∀ k : ConfKey, ∀ w ∈ ws, k.mentions w = true → k.name ++ [ch '='] <+: cstr w)
    {k : ConfKey} {i : Nat} (hk : k.flag = some i) (hclear : (GpsConf.init found).checked i = false) :
    (runFrom parseWord (.init found) ws).settings k = fileSetting ws k
      ∧ (runFrom parseWord (.init found) ws).checked i = ws.any k.mentions := by
  induction ws using List.reverseRecOn with
  | nil => exact ⟨rfl, hclear⟩
  | append_singleton ws w ih =>
      obtain ⟨hset, hchecked⟩ := ih fun k' x hx => hform k' x (List.mem_append_left _ hx)
      obtain ⟨hset', hchecked'⟩ := parseWord_flagged (c := runFrom parseWord (.init found) ws) hk
        (hform k w (by simp))
      rw [runFrom_append, runFrom_cons, runFrom_nil, hset', hchecked', hset, hchecked]
      refine ⟨?_, by rw [List.any_append, List.any_cons, List.any_nil, Bool.or_false]⟩
      rw [fileSetting, fileSetting, fileValue, fileValue, List.find?_append]
      by_cases hany : ws.any k.mentions = true
      · obtain ⟨x, hx⟩ := find_mentioned (List.any_eq_true.mp hany)
        rw [hx, if_neg fun h => by simp [hany] at h]
        rfl
      · have hnone : ws.find? k.mentions = none := by
          rw [List.find?_eq_none]
          simpa using hany
        rw [hnone]
        cases hw : k.mentions w <;> simp [hany, hw]

/-- With the byte behind `CHECKED` set, the precision is never looked for. -/
theorem run_precision_behind {found : ConfMem} (hbehind : found.behind = true)
    {ws : List (List Byte)}
    (hform : ∀ k : ConfKey, ∀ w ∈ ws, k.mentions w = true → k.name ++ [ch '='] <+: cstr w) :
    (runFrom parseWord (.init found) ws).settings .precision = 10
      ∧ (runFrom parseWord (.init found) ws).checked 4 = true := by
  induction ws using List.reverseRecOn with
  | nil => exact ⟨rfl, hbehind⟩
  | append_singleton ws w ih =>
      obtain ⟨hset, hchecked⟩ := ih fun k' x hx => hform k' x (List.mem_append_left _ hx)
      obtain ⟨hset', hchecked'⟩ := parseWord_flagged (c := runFrom parseWord (.init found) ws)
        (k := .precision) rfl (hform .precision w (by simp))
      rw [runFrom_append, runFrom_cons, runFrom_nil, hset', hchecked', hset, hchecked]
      exact ⟨if_neg fun h => Bool.false_ne_true h.1.symm, rfl⟩

/-- Words that do not mention the interval leave it alone. -/
theorem run_interval_same {ws : List (List Byte)}
    (hnone : ∀ w ∈ ws, ConfKey.interval.mentions w = false) (c : GpsConf) :
    (runFrom parseWord c ws).settings .interval = c.settings .interval := by
  induction ws generalizing c with
  | nil => rfl
  | cons w ws ih =>
      rw [List.forall_mem_cons] at hnone
      have hword : ¬ConfKey.interval.mentions w = true := by simp [hnone.1]
      rw [runFrom_cons, ih hnone.2, parseWord_interval fun h => absurd h hword,
        if_neg fun h => hword h.2]

/-- The interval of the file has a say: automatic download is on, and the interval is in
range and another than the default. -/
def IntervalMatters (ws : List (List Byte)) : Prop :=
  fileSetting ws .autoDownload ≠ 0
    ∧ ∃ i, fileValue ws .interval = some i ∧ ConfKey.interval.inRange i = true ∧ i ≠ 24

/-- The word that turns automatic download on does not stand before the interval. -/
def IntervalTooEarly (ws : List (List Byte)) : Prop :=
  IntervalMatters ws ∧ ∀ w ∈ ws.takeWhile fun w => !ConfKey.interval.mentions w,
    ConfKey.autoDownload.mentions w = false

/-- The first word that mentions the key decides. -/
theorem fileSetting_append {a b : List (List Byte)} {k : ConfKey}
    (h : ∃ w ∈ a, k.mentions w = true) : fileSetting (a ++ b) k = fileSetting a k := by
  obtain ⟨w, hw⟩ := find_mentioned h
  rw [fileSetting, fileSetting, fileValue, fileValue, List.find?_append, hw]
  rfl

/-- The value of the word that mentions the key. -/
theorem fileValue_at {a b : List (List Byte)} {w : List Byte} {k : ConfKey}
    (ha : ∀ x ∈ a, k.mentions x = false) (hw : k.mentions w = true) :
    fileValue (a ++ w :: b) k = some (k.value w) := by
  rw [fileValue, List.find?_append, List.find?_eq_none.mpr (by simpa using ha), Option.none_or,
    List.find?_cons_of_pos hw]
  rfl

theorem fileSetting_at {a b : List (List Byte)} {w : List Byte} {k : ConfKey}
    (ha : ∀ x ∈ a, k.mentions x = false) (hw : k.mentions w = true) :
    fileSetting (a ++ w :: b) k = k.put (k.value w) k.default := by
  rw [fileSetting, fileValue_at ha hw]
  rfl

theorem takeWhile_not_mentions {a b : List (List Byte)} {w : List Byte} {k : ConfKey}
    (ha : ∀ x ∈ a, k.mentions x = false) (hw : k.mentions w = true) :
    (a ++ w :: b).takeWhile (fun w => !k.mentions w) = a := by
  rw [List.takeWhile_append_of_pos (by simpa using ha), List.takeWhile_cons_of_neg (by simp [hw]),
    List.append_nil]

/-- The interval after the words before the one that mentions it, that word, and the rest. -/
theorem run_interval (found : ConfMem) {a b : List (List Byte)} {w : List Byte}
    (h : ConfFile (a ++ w :: b)) (hw : ConfKey.interval.mentions w = true) :
    (runFrom parseWord (.init found) (a ++ w :: b)).settings .interval
      = if fileSetting a .autoDownload ≠ 0 then
          ConfKey.interval.put (ConfKey.interval.value w) 24 else 24 := by
  obtain ⟨ha, hb⟩ := h.around hw
  have hother : ConfKey.autoDownload.mentions w = false := by
    by_contra hauto
    have := h.not_both (by simp) hw (by simpa using hauto)
    cases this
  have hform := h.form
  have hforma : ∀ k : ConfKey, ∀ x ∈ a, k.mentions x = true → k.name ++ [ch '='] <+: cstr x :=
    fun k x hx => hform k x (by simp [hx])
  obtain ⟨hset, -⟩ := run_flagged found hforma (k := .autoDownload) rfl rfl
  obtain ⟨hset', -⟩ := parseWord_flagged (c := runFrom parseWord (.init found) a) (w := w)
    (k := .autoDownload) rfl fun hauto => by rw [hother] at hauto; cases hauto
  rw [if_neg fun hauto => by rw [hother] at hauto; exact absurd hauto.2 (by decide), hset] at hset'
  rw [runFrom_append, runFrom_cons, run_interval_same hb, parseWord_interval (hform _ w (by simp)),
    hset', run_interval_same ha]
  simp only [hw, and_true]
  rfl

/-- The precision is looked for, or there is nothing to find. -/
def PrecisionKept (found : ConfMem) (ws : List (List Byte)) : Prop :=
  found.behind = true → fileSetting ws .precision = 10

theorem run_intended (found : ConfMem) {ws : List (List Byte)} (h : ConfFile ws) {k : ConfKey}
    (hk : k ≠ .interval) :
    (runFrom parseWord (.init found) ws).settings k
      = if k = .precision ∧ found.behind = true then 10 else intended ws k := by
  have hflagged {i : Nat} (hi : k.flag = some i) (hclear : (GpsConf.init found).checked i = false) :
      (runFrom parseWord (.init found) ws).settings k = intended ws k := by
    rw [(run_flagged found h.form hi hclear).1, intended, if_neg fun h => hk h.1]
  cases k with
  | interval => exact absurd rfl hk
  | autoDownload =>
      rw [if_neg fun hboth => by cases hboth.1]
      exact hflagged (i := 1) rfl rfl
  | cleanup =>
      rw [if_neg fun hboth => by cases hboth.1]
      exact hflagged (i := 2) rfl rfl
  | timeout =>
      rw [if_neg fun hboth => by cases hboth.1]
      exact hflagged (i := 3) rfl rfl
  | precision =>
      cases hbehind : found.behind with
      | false =>
          rw [if_neg fun hboth => Bool.false_ne_true hboth.2]
          exact hflagged (i := 4) rfl hbehind
      | true =>
          rw [if_pos ⟨rfl, rfl⟩]
          exact (run_precision_behind hbehind h.form).1

/-- Where the interval is not mentioned it keeps its default. -/
theorem run_interval_unmentioned (found : ConfMem) {ws : List (List Byte)}
    (hnone : ∀ w ∈ ws, ConfKey.interval.mentions w = false) :
    (runFrom parseWord (.init found) ws).settings .interval = intended ws .interval
      ∧ ¬IntervalTooEarly ws := by
  have hvalue := fileValue_none hnone
  have hdefault : fileSetting ws .interval = 24 := by
    rw [fileSetting, hvalue]
    rfl
  constructor
  · rw [run_interval_same hnone, intended, hdefault]
    split <;> rfl
  · rintro ⟨⟨-, i, hi, -⟩, -⟩
    rw [hvalue] at hi
    cases hi

/-- Where automatic download is mentioned before the interval, the interval is taken as it
should be. -/
theorem run_interval_late (found : ConfMem) {a b : List (List Byte)} {w : List Byte}
    (h : ConfFile (a ++ w :: b)) (hw : ConfKey.interval.mentions w = true)
    (hauto : ∃ x ∈ a, ConfKey.autoDownload.mentions x = true) :
    (runFrom parseWord (.init found) (a ++ w :: b)).settings .interval
        = intended (a ++ w :: b) .interval
      ∧ ¬IntervalTooEarly (a ++ w :: b) := by
  obtain ⟨ha, -⟩ := h.around hw
  constructor
  · rw [run_interval found h hw, intended, fileSetting_append hauto, fileSetting_at ha hw]
    by_cases hoff : fileSetting a .autoDownload = 0
    · rw [if_neg (not_not.mpr hoff), if_pos ⟨rfl, hoff⟩]
      rfl
    · rw [if_pos hoff, if_neg fun hboth => hoff hboth.2]
      rfl
  · rintro ⟨-, hnone⟩
    obtain ⟨x, hx, hmentions⟩ := hauto
    rw [takeWhile_not_mentions ha hw] at hnone
    rw [hnone x hx] at hmentions
    cases hmentions

/-- Where it is not, the interval keeps its default. -/
theorem run_interval_early (found : ConfMem) {a b : List (List Byte)} {w : List Byte}
    (h : ConfFile (a ++ w :: b)) (hw : ConfKey.interval.mentions w = true)
    (hnone : ∀ x ∈ a, ConfKey.autoDownload.mentions x = false) :
    (runFrom parseWord (.init found) (a ++ w :: b)).settings .interval
        = intended (a ++ w :: b) .interval ↔
      ¬IntervalTooEarly (a ++ w :: b) := by
  obtain ⟨ha, -⟩ := h.around hw
  have hoff : fileSetting a .autoDownload = 0 := by
    rw [fileSetting, fileValue_none hnone]
    rfl
  rw [run_interval found h hw, if_neg (not_not.mpr hoff), intended, IntervalTooEarly,
    takeWhile_not_mentions ha hw, IntervalMatters, fileValue_at ha hw, fileSetting_at ha hw]
  by_cases hon : fileSetting (a ++ w :: b) .autoDownload = 0
  · rw [if_pos ⟨rfl, hon⟩]
    exact iff_of_true rfl fun hmatters => hmatters.1.1 hon
  · rw [if_neg fun hboth => hon hboth.2, ConfKey.put]
    by_cases hrange : ConfKey.interval.inRange (ConfKey.interval.value w) = true
    · rw [if_pos hrange]
      constructor
      · rintro heq ⟨⟨-, i, hi, -, hne⟩, -⟩
        exact hne ((Option.some.inj hi).symm.trans heq.symm)
      · intro hearly
        by_contra hne
        exact hearly ⟨⟨hon, _, rfl, hrange, fun heq => hne heq.symm⟩, hnone⟩
    · rw [if_neg hrange]
      refine iff_of_true rfl ?_
      rintro ⟨⟨-, i, hi, hin, -⟩, -⟩
      rw [← Option.some.inj hi] at hin
      exact hrange hin

theorem run_interval_iff (found : ConfMem) {ws : List (List Byte)} (h : ConfFile ws) :
    (runFrom parseWord (.init found) ws).settings .interval = intended ws .interval ↔
      ¬IntervalTooEarly ws := by
  by_cases hmention : ∃ w ∈ ws, ConfKey.interval.mentions w = true
  · obtain ⟨w, hmem, hw⟩ := hmention
    obtain ⟨a, b, rfl⟩ := List.append_of_mem hmem
    by_cases hauto : ∃ x ∈ a, ConfKey.autoDownload.mentions x = true
    · obtain ⟨hright, hlate⟩ := run_interval_late found h hw hauto
      exact iff_of_true hright hlate
    · exact run_interval_early found h hw (not_mentioned hauto)
  · obtain ⟨hright, hlate⟩ := run_interval_unmentioned found (not_mentioned hmention)
    exact iff_of_true hright hlate

theorem run_intended_iff (found : ConfMem) {ws : List (List Byte)} (h : ConfFile ws) :
    (∀ k, (runFrom parseWord (.init found) ws).settings k = intended ws k) ↔
      ¬IntervalTooEarly ws ∧ PrecisionKept found ws := by
  rw [← run_interval_iff found h]
  constructor
  · intro hall
    refine ⟨hall .interval, fun hbehind => ?_⟩
    have hprecision := hall .precision
    rw [run_intended found h (by decide), if_pos ⟨rfl, hbehind⟩] at hprecision
    exact hprecision.symm
  · rintro ⟨hinterval, hkept⟩ k
    by_cases hk : k = .interval
    · rw [hk]
      exact hinterval
    · rw [run_intended found h hk]
      split_ifs with hprecision
      · rw [hprecision.1]
        exact (hkept hprecision.2).symm
      · rfl

/-- Where the interval matters, the file can be put into an order that loses it and into one
that does not. -/
theorem IntervalMatters.reorder {ws : List (List Byte)} (h : ConfFile ws)
    (hmatters : IntervalMatters ws) :
    ∃ early late, early.Perm ws ∧ late.Perm ws ∧ IntervalTooEarly early
      ∧ ¬IntervalTooEarly late := by
  obtain ⟨hon, i, hi, hrange, hne⟩ := hmatters
  obtain ⟨w, hw, -⟩ := Option.map_eq_some_iff.mp hi
  have hmentioned : ∃ y ∈ ws, ConfKey.autoDownload.mentions y = true := by
    by_contra hnone
    refine hon ?_
    rw [fileSetting, fileValue_none (not_mentioned hnone)]
    rfl
  obtain ⟨x, hx⟩ := find_mentioned hmentioned
  have hwws := List.mem_of_find?_eq_some hw
  have hxws := List.mem_of_find?_eq_some hx
  have hwmentions := List.find?_some hw
  have hxmentions := List.find?_some hx
  have hdiffer : ∀ {y : List Byte}, y ∈ ws → ConfKey.interval.mentions y = true →
      ConfKey.autoDownload.mentions y = true → False := by
    intro y hy hinterval hauto
    cases h.not_both hy hinterval hauto
  have hwx : w ∈ ws.erase x := by
    refine (List.mem_erase_of_ne ?_).mpr hwws
    rintro rfl
    exact hdiffer hwws hwmentions hxmentions
  have hlate : (x :: w :: (ws.erase x).erase w).Perm ws :=
    ((List.perm_cons_erase hwx).symm.cons x).trans (List.perm_cons_erase hxws).symm
  have hearly : (w :: x :: (ws.erase x).erase w).Perm ws := (List.Perm.swap x w _).trans hlate
  refine ⟨_, _, hearly, hlate, ⟨⟨?_, i, ?_, hrange, hne⟩, ?_⟩, ?_⟩
  · rw [h.fileSetting_perm hearly]
    exact hon
  · rw [h.fileValue_perm hearly]
    exact hi
  · rw [List.takeWhile_cons_of_neg (by simp [hwmentions])]
    simp
  · rintro ⟨-, hnone⟩
    have hfirst : ConfKey.interval.mentions x = false := by
      by_contra hinterval
      exact hdiffer hxws (by simpa using hinterval) hxmentions
    rw [List.takeWhile_cons_of_pos (by simp [hfirst])] at hnone
    rw [hnone x (List.mem_cons_self ..)] at hxmentions
    cases hxmentions

/-- A file in which automatic download is turned on first. -/
def orderedConf : List Byte :=
  "GPS1_XTRA_AUTO_DOWNLOAD_ENABLED=1\nGPS1_XTRA_DOWNLOAD_INTERVAL=48\n".toList.map ch

/-- The same two lines the other way round. -/
def swappedConf : List Byte :=
  "GPS1_XTRA_DOWNLOAD_INTERVAL=48\nGPS1_XTRA_AUTO_DOWNLOAD_ENABLED=1\n".toList.map ch

def autoDownloadWord : List Byte := "GPS1_XTRA_AUTO_DOWNLOAD_ENABLED=1".toList.map ch

def intervalWord : List Byte := "GPS1_XTRA_DOWNLOAD_INTERVAL=48".toList.map ch

/-- What the words of the two files are and hold. -/
theorem confWords :
    scanWords orderedConf = [autoDownloadWord, intervalWord]
      ∧ scanWords swappedConf = [intervalWord, autoDownloadWord]
      ∧ ConfFile [autoDownloadWord, intervalWord]
      ∧ ConfKey.interval.mentions intervalWord = true
      ∧ ConfKey.interval.put (ConfKey.interval.value intervalWord) 24 = 48
      ∧ fileSetting [autoDownloadWord] .autoDownload = 1 := by
  decide +kernel

theorem orderedConf_words : scanWords orderedConf = [autoDownloadWord, intervalWord] :=
  confWords.1

theorem swappedConf_words : scanWords swappedConf = [intervalWord, autoDownloadWord] :=
  confWords.2.1

theorem orderedConf_file : ConfFile [autoDownloadWord, intervalWord] := confWords.2.2.1

theorem intervalWord_mentions : ConfKey.interval.mentions intervalWord = true :=
  confWords.2.2.2.1

theorem intervalWord_put : ConfKey.interval.put (ConfKey.interval.value intervalWord) 24 = 48 :=
  confWords.2.2.2.2.1

theorem autoDownloadWord_setting : fileSetting [autoDownloadWord] .autoDownload = 1 :=
  confWords.2.2.2.2.2

theorem orderedConf_interval (found : ConfMem) :
    (parseGpsConf found orderedConf).settings .interval = 48 := by
  have hrun := run_interval found (a := [autoDownloadWord]) orderedConf_file intervalWord_mentions
  rw [autoDownloadWord_setting, if_pos (by decide), intervalWord_put, List.singleton_append] at hrun
  rw [parseGpsConf, orderedConf_words, hrun]

theorem swappedConf_interval (found : ConfMem) :
    (parseGpsConf found swappedConf).settings .interval = 24 := by
  have hfile := orderedConf_file.perm (List.Perm.swap autoDownloadWord intervalWord [])
  have hrun := run_interval found (a := []) hfile intervalWord_mentions
  have hunset : fileSetting [] .autoDownload = 0 := rfl
  rw [hunset, if_neg (not_not.mpr rfl), List.nil_append] at hrun
  rw [parseGpsConf, swappedConf_words, hrun]

end HtcLeo
