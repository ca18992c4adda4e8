-- SUMMARY: Values in double quotes: which of them the reader of the configuration stores as they stand.
import NeuroPipeline.Edge.ConfigTree

/-!
# Quoted scalars

The reader cuts every line at its first `#`, also inside quotes, and takes quotes and
blanks away together. What it stores has gone through both, whatever the file says.
-/

namespace ConfigManager

open ConfigTree (pad setAll)

variable {v s key item line : Text} {st : Parser} {indent : Nat}

/-! ## What can be stored -/

/-- Nothing of a comment, and trimmed. -/
structure Stored (v : Text) : Prop where
  noComment : '#' ∉ v
  trimmed : trimValue v = v

theorem head_trimValue (v : Text) : ∀ c ∈ (trimValue v).head?, isBlankOrQuote c = false := by
  intro c hc
  obtain ⟨t, ht⟩ := List.rdropWhile_prefix isBlankOrQuote (v.dropWhile isBlankOrQuote)
  have hhead : (v.dropWhile isBlankOrQuote).head? = some c := by
    rw [← ht, List.head?_append, ← trimValue, Option.mem_def.mp hc]
    rfl
  have hnot := List.head?_dropWhile_not isBlankOrQuote v
  rwa [hhead] at hnot

theorem last_trimValue (v : Text) : ∀ c ∈ (trimValue v).getLast?, isBlankOrQuote c = false := by
  intro c hc
  have hne : trimValue v ≠ [] := by
    rintro heq
    rw [heq] at hc
    cases hc
  have hnot := List.rdropWhile_last_not isBlankOrQuote _ hne
  rw [Option.mem_def, List.getLast?_eq_some_getLast hne] at hc
  rw [← Option.some_inj.mp hc]
  exact Bool.not_eq_true _ ▸ hnot

theorem stored_trimValue (h : '#' ∉ v) : Stored (trimValue v) := by
  refine ⟨?_, ?_⟩
  · intro hmem
    have hdrop := (List.rdropWhile_prefix isBlankOrQuote _).subset hmem
    exact h ((List.dropWhile_suffix isBlankOrQuote).subset hdrop)
  · rw [trimValue, ConfigTree.dropWhile_eq_self (head_trimValue v),
      ConfigTree.rdropWhile_eq_self (last_trimValue v)]

/-- No comment starts in it, and it has no space and no tab at either end. -/
structure ReadLiterally (s : Text) : Prop where
  noComment : '#' ∉ s
  head : ∀ c ∈ s.head?, isSpaceOrTab c = false
  last : ∀ c ∈ s.getLast?, isSpaceOrTab c = false

theorem isSpaceOrTab_of_isBlankOrQuote {c : Char} (h : isBlankOrQuote c = false) :
    isSpaceOrTab c = false :=
  (Bool.or_eq_false_iff.mp h).1

theorem isBlankOrQuote_of_mem {c : Char} (hs : '"' ∉ s) (hc : c ∈ s)
    (h : isSpaceOrTab c = false) : isBlankOrQuote c = false := by
  have hne : c ≠ '"' := by
    rintro rfl
    exact hs hc
  rw [isBlankOrQuote, h]
  simpa using hne

theorem stored_iff (hs : '"' ∉ s) : Stored s ↔ ReadLiterally s := by
  constructor
  · rintro ⟨hcomment, htrimmed⟩
    refine ⟨hcomment, ?_, ?_⟩
    · intro c hc
      rw [← htrimmed] at hc
      exact isSpaceOrTab_of_isBlankOrQuote (head_trimValue s c hc)
    · intro c hc
      rw [← htrimmed] at hc
      exact isSpaceOrTab_of_isBlankOrQuote (last_trimValue s c hc)
  · rintro ⟨hcomment, hhead, hlast⟩
    refine ⟨hcomment, ?_⟩
    rw [trimValue, ConfigTree.dropWhile_eq_self, ConfigTree.rdropWhile_eq_self]
    · intro c hc
      exact isBlankOrQuote_of_mem hs (List.mem_of_getLast? hc) (hlast c hc)
    · intro c hc
      exact isBlankOrQuote_of_mem hs (List.mem_of_mem_head? hc) (hhead c hc)

/-! ## What a line stores -/

namespace Parser

/-- From where the reader is, a step leads on to another place and stores some pairs,
whatever is stored already. -/
def Edits (f : Parser → Parser) (st : Parser) : Prop :=
  ∃ (st' : Parser) (edits : List (Text × Text)), (∀ kv ∈ edits, Stored kv.2) ∧
    ∀ config, f { st with config } = { st' with config := setAll config edits }

/-- Where the reader is, without what it has stored, decides the step. -/
theorem Edits.of_move {f g : Parser → Parser} {st₁ : Parser} (h : Edits f st₁)
    (hmove : ∀ config, g { st with config } = f { st₁ with config }) : Edits g st := by
  obtain ⟨st', edits, hstored, hedits⟩ := h
  exact ⟨st', edits, hstored, fun config => (hmove config).trans (hedits config)⟩

theorem edits_id (st : Parser) : Edits id st := ⟨st, [], nofun, fun _ => rfl⟩

theorem notMem_of_splitColon {k : Text} (h : splitColon item = some (k, v)) (hitem : '#' ∉ item) :
    '#' ∉ v := by
  unfold splitColon at h
  split at h
  next => cases h
  next c value heq =>
      obtain ⟨-, rfl⟩ := Prod.mk.inj (Option.some_inj.mp h)
      intro hmem
      have htail : '#' ∈ item.dropWhile (· ≠ ':') := by
        rw [heq]
        exact List.mem_cons_of_mem _ hmem
      exact hitem ((List.dropWhile_suffix _).subset htail)

theorem edits_putItem (st : Parser) (hitem : '#' ∉ item) : Edits (·.putItem item) st := by
  cases hsplit : splitColon item with
  | none => exact ⟨st, [], nofun, fun config => by simp only [putItem, hsplit, setAll, List.foldl_nil]⟩
  | some kv =>
      obtain ⟨k, v⟩ := kv
      have hstored := stored_trimValue (notMem_of_splitColon hsplit hitem)
      refine ⟨st, [(joined (joined st.listSection (toString st.listIndex).toList) (trimValue k),
        trimValue v)], ?_, ?_⟩
      · intro kv hkv
        rw [List.mem_singleton.mp hkv]
        exact hstored
      · intro config
        simp only [putItem, hsplit]
        rfl

theorem edits_listItem (st : Parser) (indent : Nat) (hline : '#' ∉ line) :
    Edits (·.listItem indent line) st := by
  have hitem : '#' ∉ (line.drop 2).dropWhile isSpaceOrTab := by
    intro hmem
    exact hline (List.mem_of_mem_drop ((List.dropWhile_suffix _).subset hmem))
  by_cases hfirst : st.listSection.isEmpty
  · refine (edits_putItem { st with
      listSection := currentSection st.sectionStack, listIndex := 0, listIndent := indent }
      hitem).of_move fun config => ?_
    simp only [listItem, hfirst, if_true]
  · by_cases hnext : (indent : Int) ≤ st.listIndent
    · refine (edits_putItem { st with listIndex := st.listIndex + 1 } hitem).of_move
        fun config => ?_
      simp only [listItem, hfirst, hnext, Bool.false_eq_true, if_true, if_false]
    · refine (edits_putItem st hitem).of_move fun config => ?_
      simp only [listItem, hfirst, hnext, Bool.false_eq_true, if_false]

/-- The place of a line of a section: the list is over, and so are the sections that do not
hold it. -/
def enter (st : Parser) (indent : Nat) : Parser := (st.closeList indent).popSections indent

theorem enter_config (st : Parser) (indent : Nat) (config : Dict Text Text) :
    ({ st with config } : Parser).enter indent = { st.enter indent with config } := by
  unfold enter closeList
  split <;> rfl

theorem config_enter (st : Parser) (indent : Nat) : (st.enter indent).config = st.config := by
  unfold enter closeList
  split <;> rfl

/-- The key of an entry of the innermost open section. -/
def entryKey (st : Parser) (key : Text) : Text :=
  if (currentSection st.sectionStack).isEmpty then key
  else joined (currentSection st.sectionStack) key

theorem sectionLine_none (h : splitColon line = none) :
    st.sectionLine indent line = st.enter indent := by
  simp only [sectionLine, h]
  rfl

theorem sectionLine_some {key value : Text} (h : splitColon line = some (key, value)) :
    st.sectionLine indent line =
      if (trimValue value).isEmpty && !isQuotedEmpty value then
        { st.enter indent with
          sectionStack := (indent, trimValue key) :: (st.enter indent).sectionStack }
      else { st.enter indent with
        config := (st.enter indent).config.set ((st.enter indent).entryKey (trimValue key))
          (trimValue value) } := by
  simp only [sectionLine, h]
  rfl

theorem edits_sectionLine (st : Parser) (indent : Nat) (hline : '#' ∉ line) :
    Edits (·.sectionLine indent line) st := by
  cases hsplit : splitColon line with
  | none =>
      refine (edits_id (st.enter indent)).of_move fun config => ?_
      rw [sectionLine_none hsplit, enter_config]
      rfl
  | some kv =>
      obtain ⟨key, value⟩ := kv
      -- a key without a value opens a section and stores nothing
      by_cases hhead : ((trimValue value).isEmpty && !isQuotedEmpty value) = true
      · refine (edits_id { st.enter indent with
          sectionStack := (indent, trimValue key) :: (st.enter indent).sectionStack }).of_move
          fun config => ?_
        rw [sectionLine_some hsplit, if_pos hhead, enter_config]
        rfl
      · refine ⟨st.enter indent, [((st.enter indent).entryKey (trimValue key), trimValue value)],
          ?_, ?_⟩
        · intro kv hkv
          rw [List.mem_singleton.mp hkv]
          exact stored_trimValue (notMem_of_splitColon hsplit hline)
        · intro config
          show ({ st with config } : Parser).sectionLine indent line = _
          rw [sectionLine_some hsplit, if_neg hhead, enter_config]
          rfl

theorem notMem_of_cleanLine {body : Text} (h : cleanLine line = some (indent, body)) :
    '#' ∉ body := by
  simp only [cleanLine] at h
  split at h
  next => cases h
  next =>
      obtain ⟨-, rfl⟩ := Prod.mk.inj (Option.some_inj.mp h)
      intro hmem
      have hdrop := (List.rdropWhile_prefix isBlank _).subset hmem
      have htake := (List.dropWhile_suffix isBlank).subset hdrop
      simpa using List.mem_takeWhile_imp htake

theorem edits_readLine (st : Parser) (line : Text) : Edits (·.readLine line) st := by
  cases hclean : cleanLine line with
  | none => exact (edits_id st).of_move fun config => by rw [readLine, hclean]; rfl
  | some p =>
      obtain ⟨indent, body⟩ := p
      have hbody := notMem_of_cleanLine hclean
      by_cases hitem : isListItem body = true
      · refine (edits_listItem st indent hbody).of_move fun config => ?_
        simp only [readLine, hclean, hitem, if_true]
      · by_cases hcontinues : st.continuesItem indent = true
        · refine (edits_putItem st hbody).of_move fun config => ?_
          have hsame : ({ st with config } : Parser).continuesItem indent = true := hcontinues
          simp only [readLine, hclean, hitem, hsame, Bool.false_eq_true, if_true, if_false]
        · refine (edits_sectionLine st indent hbody).of_move fun config => ?_
          have hsame : ¬({ st with config } : Parser).continuesItem indent = true := hcontinues
          simp only [readLine, hclean, hitem, hsame, Bool.false_eq_true, if_false]

theorem edits_foldl (st : Parser) (lines : List Text) : Edits (lines.foldl readLine) st := by
  induction lines generalizing st with
  | nil => exact edits_id st
  | cons line lines ih =>
      obtain ⟨st₁, edits₁, hstored₁, hline⟩ := edits_readLine st line
      obtain ⟨st₂, edits₂, hstored₂, hlines⟩ := ih st₁
      refine ⟨st₂, edits₁ ++ edits₂, ?_, ?_⟩
      · intro kv hkv
        rcases List.mem_append.mp hkv with hkv | hkv
        · exact hstored₁ kv hkv
        · exact hstored₂ kv hkv
      · intro config
        rw [ConfigTree.setAll_append]
        exact (congrArg (lines.foldl readLine) (hline config)).trans (hlines _)

/-- Where the lines lead does not depend on what was stored before them. -/
theorem foldl_withConfig (st : Parser) (lines : List Text) (config : Dict Text Text) :
    ∃ stored, lines.foldl readLine { st with config } =
      { lines.foldl readLine st with config := stored } := by
  obtain ⟨st', edits, -, hedits⟩ := edits_foldl st lines
  have hsame : lines.foldl readLine st = { st' with config := setAll st.config edits } :=
    hedits st.config
  rw [hsame]
  exact ⟨setAll config edits, hedits config⟩

/-- Whatever lines it has read, the reader holds nothing else. -/
theorem stored_of_lookup {lines : List Text} {path : Text}
    (h : (lines.foldl readLine { config := ∅ }).config.lookup path = some v) : Stored v := by
  obtain ⟨st', edits, hstored, hedits⟩ := edits_foldl { config := ∅ } lines
  have hconfig : (lines.foldl readLine { config := ∅ }).config = Dict.ofList edits :=
    congrArg Parser.config (hedits ∅)
  rw [hconfig, Dict.lookup_ofList] at h
  obtain ⟨kv, hfind, rfl⟩ := Option.map_eq_some_iff.mp h
  exact hstored kv (List.mem_reverse.mp (List.mem_of_find?_eq_some hfind))

/-- Read from here on, the lines store nothing under the key. -/
def LeavesUnset (st : Parser) (path : Text) (lines : List Text) : Prop :=
  path ∉ (lines.foldl readLine { st with config := ∅ }).config

theorem lookup_setAll (config : Dict Text Text) (edits : List (Text × Text)) (path : Text) :
    (setAll config edits).lookup path =
      ((setAll ∅ edits).lookup path).or (config.lookup path) := by
  induction edits using List.reverseRecOn with
  | nil => rfl
  -- the last edit of the key decides; the configuration below is asked only without one
  | append_singleton edits kv ih =>
      have hsnoc : ∀ d, setAll d (edits ++ [kv]) = (setAll d edits).set kv.1 kv.2 :=
        fun d => ConfigTree.setAll_append d edits [kv]
      rw [hsnoc, hsnoc, Dict.lookup_set, Dict.lookup_set, ih]
      split <;> rfl

theorem LeavesUnset.lookup {lines : List Text} {path : Text} (h : st.LeavesUnset path lines) :
    (lines.foldl readLine st).config.lookup path = st.config.lookup path := by
  obtain ⟨st', edits, -, hedits⟩ := edits_foldl st lines
  have hempty : lines.foldl readLine { st with config := ∅ } =
      { st' with config := setAll ∅ edits } := hedits ∅
  have hnone : (setAll ∅ edits).lookup path = none := by
    rw [LeavesUnset, hempty, ← Dict.lookup_ne_none, not_not] at h
    exact h
  have hsame : lines.foldl readLine st = { st' with config := setAll st.config edits } :=
    hedits st.config
  rw [hsame]
  exact (lookup_setAll st.config edits path).trans (by rw [hnone, Option.none_or])

end Parser

/-! ## A quoted scalar -/

/-- `key: "s"` -/
def quoted (key s : Text) : Text := key ++ ':' :: ' ' :: '"' :: (s ++ ['"'])

/-- A key ends at its colon and does not open a list item or a comment. -/
structure KeyText (key : Text) : Prop where
  noColon : ':' ∉ key
  noComment : '#' ∉ key
  head : ∀ c ∈ key.head?, isBlank c = false
  noDash : Parser.isListItem key = false

/-- The key under which a value is stored, if its line starts in the given column. -/
def Parser.pathOf (st : Parser) (indent : Nat) (key : Text) : Text :=
  if st.continuesItem indent then
    joined (joined st.listSection (toString st.listIndex).toList) (trimValue key)
  else (st.enter indent).entryKey (trimValue key)

theorem Parser.pathOf_withConfig (st : Parser) (config : Dict Text Text) (indent : Nat)
    (key : Text) : ({ st with config } : Parser).pathOf indent key = st.pathOf indent key := by
  rw [pathOf, pathOf, enter_config]
  rfl

/-- In nested sections that is the dotted path. -/
theorem pathOf_of_at {base : List (Nat × Text)} (h : ConfigTree.At st indent base)
    (hnames : ∀ n ∈ ConfigTree.names base, n ≠ []) (key : Text) :
    st.pathOf indent key = ConfigTree.dotted (ConfigTree.names base ++ [trimValue key]) := by
  rw [Parser.pathOf, if_neg (by simp [h.continuesItem]), Parser.entryKey, Parser.enter,
    h.enter.1.sections, ConfigTree.joined_currentSection hnames]

theorem body_quoted (hkey : KeyText key) (hs : '#' ∉ s) : ConfigTree.Body (quoted key s) := by
  refine ⟨by simp [quoted], ?_, ?_, ?_⟩
  · simp [quoted, hkey.noComment, hs]
  · intro c hc
    cases key with
    | nil =>
        obtain rfl := Option.some_inj.mp hc
        rfl
    | cons d key => exact hkey.head c hc
  · intro c hc
    rw [quoted, List.getLast?_append_of_ne_nil _ (by simp), List.getLast?_cons_cons,
      List.getLast?_cons_cons, List.getLast?_cons_of_ne_nil (by simp), List.getLast?_concat] at hc
    obtain rfl := Option.some_inj.mp hc
    rfl

theorem isListItem_quoted (hkey : KeyText key) (s : Text) :
    Parser.isListItem (quoted key s) = false := by
  have hdash := hkey.noDash
  match key with
  | [] => rfl
  | [c] => simp [quoted, Parser.isListItem]
  | c :: d :: key =>
      unfold Parser.isListItem at hdash ⊢
      split at hdash
      next => cases hdash
      next hnot =>
          split
          next rest heq =>
              obtain ⟨rfl, htail⟩ := List.cons.inj heq
              obtain ⟨rfl, -⟩ := List.cons.inj htail
              exact absurd rfl (hnot key)
          next => rfl

theorem trimValue_quoted (hs : Stored s) : trimValue (' ' :: '"' :: (s ++ ['"'])) = s := by
  have hhead : ∀ c ∈ s.head?, isBlankOrQuote c = false := by
    rw [← hs.trimmed]
    exact head_trimValue s
  have hlast : ∀ c ∈ s.getLast?, isBlankOrQuote c = false := by
    rw [← hs.trimmed]
    exact last_trimValue s
  rw [trimValue, List.dropWhile_cons_of_pos (by rfl), List.dropWhile_cons_of_pos (by rfl)]
  by_cases hnil : s = []
  · rw [hnil]
    rfl
  · rw [ConfigTree.dropWhile_eq_self, List.rdropWhile_concat_pos _ _ _ (by rfl),
      ConfigTree.rdropWhile_eq_self hlast]
    rwa [List.head?_append_of_ne_nil _ hnil]

theorem isQuotedEmpty_quoted {s : Text} (h : s.isEmpty = true) :
    isQuotedEmpty (' ' :: '"' :: (s ++ ['"'])) = true := by
  rw [List.isEmpty_iff.mp h]
  rfl

/-- A value that can be stored is stored as it stands, at the place of its line. -/
theorem readLine_quoted (hkey : KeyText key) (hs : Stored s) (st : Parser) (indent : Nat) :
    (st.readLine (pad indent ++ quoted key s)).config =
      st.config.set (st.pathOf indent key) s := by
  have hsplit : splitColon (quoted key s) = some (key, ' ' :: '"' :: (s ++ ['"'])) :=
    ConfigTree.splitColon_append hkey.noColon _
  rw [ConfigTree.readLine_pad (body_quoted hkey hs.noComment), isListItem_quoted hkey s,
    Parser.pathOf]
  -- an entry of a list item, or one of a section
  by_cases hcontinues : st.continuesItem indent = true
  · simp only [hcontinues, Bool.false_eq_true, if_true, if_false, Parser.putItem, hsplit,
      trimValue_quoted hs]
  · have hvalue : ¬(s.isEmpty && !isQuotedEmpty (' ' :: '"' :: (s ++ ['"']))) = true := by
      cases hempty : s.isEmpty with
      | false => simp
      | true => simp [isQuotedEmpty_quoted hempty]
    rw [if_neg (by simp), if_neg hcontinues, if_neg hcontinues, Parser.sectionLine_some hsplit,
      trimValue_quoted hs, if_neg hvalue, Parser.config_enter]

/-! ## The file -/

/-- Whatever stands before the line, and with lines after it that store nothing under its
key: the value is the text between the quotes exactly when that has no `#`, and no blank at
either end. -/
theorem get_quoted_iff {content : Text} {before after : List Text} (hkey : KeyText key)
    (hs : '"' ∉ s) (hlines : fileLines content = before ++ (pad indent ++ quoted key s) :: after)
    (hafter : ((before ++ [pad indent ++ quoted key s]).foldl Parser.readLine
        { config := ∅ }).LeavesUnset
      ((before.foldl Parser.readLine { config := ∅ }).pathOf indent key) after) :
    (∀ (cfg : ConfigManager) (defaultValue : Text),
      (loadFromFile cfg (some content)).1.get
        ((before.foldl Parser.readLine { config := ∅ }).pathOf indent key) defaultValue = s) ↔
      ReadLiterally s := by
  rw [← stored_iff hs]
  constructor
  · intro h
    have hloaded := h {}
    simp only [loadFromFile, get] at hloaded
    cases hlookup : ((fileLines content).foldl Parser.readLine { config := ∅ }).config.lookup
        ((before.foldl Parser.readLine { config := ∅ }).pathOf indent key) with
    -- with nothing stored the default would have to be `s`, whichever it is
    | none =>
        have hdefault := hloaded ('#' :: s)
        rw [hlookup] at hdefault
        exact absurd hdefault (List.cons_ne_self '#' s)
    | some v =>
        have hvalue := hloaded []
        rw [hlookup] at hvalue
        rw [← show v = s from hvalue]
        exact Parser.stored_of_lookup hlookup
  · intro hstored cfg defaultValue
    -- where the reader is does not depend on what the configuration held before
    obtain ⟨held, hbefore⟩ := Parser.foldl_withConfig { config := ∅ } before cfg.config
    obtain ⟨stored, hline⟩ := Parser.foldl_withConfig { config := ∅ }
      (before ++ [pad indent ++ quoted key s]) cfg.config
    have hunset : ((before ++ [pad indent ++ quoted key s]).foldl Parser.readLine
        { config := cfg.config }).LeavesUnset
        ((before.foldl Parser.readLine { config := ∅ }).pathOf indent key) after := by
      rw [hline]
      exact hafter
    have hpath : (before.foldl Parser.readLine { config := cfg.config }).pathOf indent key =
        (before.foldl Parser.readLine { config := ∅ }).pathOf indent key := by
      rw [hbefore]
      exact Parser.pathOf_withConfig _ held indent key
    have hset : ((before ++ [pad indent ++ quoted key s]).foldl Parser.readLine
        { config := cfg.config }).config.lookup
        ((before.foldl Parser.readLine { config := ∅ }).pathOf indent key) = some s := by
      rw [List.foldl_append, List.foldl_cons, List.foldl_nil, readLine_quoted hkey hstored, hpath,
        Dict.lookup_set_self]
    rw [List.append_cons] at hlines
    simp only [loadFromFile, get]
    rw [hlines, List.foldl_append, hunset.lookup, hset, Option.getD_some]

/-- A value in a section, with an entry of the same name elsewhere. -/
def cameraFile : Text := "camera:\n  name: \"Gate: 2\"\nname: x\n".toList

theorem get_quoted_iff_cameraFile :
    (loadFromFile {} (some cameraFile)).1.get "camera.name".toList = "Gate: 2".toList := by
  have hpath : (["camera:".toList].foldl Parser.readLine { config := ∅ }).pathOf 2 "name".toList =
      "camera.name".toList := by decide +kernel
  have hkey : KeyText "name".toList := ⟨by decide, by decide, by rintro c ⟨⟩; decide, by decide⟩
  have hlines : fileLines cameraFile = ["camera:".toList] ++
      (pad 2 ++ quoted "name".toList "Gate: 2".toList) :: ["name: x".toList, []] := by
    decide +kernel
  have hread := get_quoted_iff hkey (by decide) hlines
    (by unfold Parser.LeavesUnset; decide +kernel)
  rw [hpath] at hread
  exact hread.mpr ⟨by decide, by rintro c ⟨⟩; decide, by rintro c ⟨⟩; decide⟩ {} []

/-- A fragment and blanks are lost, and a value of a colour or of blanks alone opens a
section. -/
theorem get_quoted_lost :
    (loadFromFile {} (some "url: \"http://host/page#top\"".toList)).1.get "url".toList ≠
        "http://host/page#top".toList ∧
      (loadFromFile {} (some "pad: \" x\"".toList)).1.get "pad".toList ≠ " x".toList ∧
      (loadFromFile {} (some "color: \"#ff0000\"".toList)).1.get "color".toList ≠
        "#ff0000".toList ∧
      (loadFromFile {} (some "gap: \"  \"".toList)).1.get "gap".toList ≠ "  ".toList := by
  decide +kernel

end ConfigManager
