-- SUMMARY: The structure that a configuration file is meant to have, how it is printed, and that the reader finds it.
import NeuroPipeline.Edge.ConfigManager

/-!
# Configuration trees

A tree of nested sections, with lists of flat maps as the values of keys. The reader
keeps a stack of the sections and the position in the current list; on a printed tree
both follow the structure.
-/

/-! ## Trees -/

/-- A flat map in a list; its first key stands behind the dash. -/
structure ConfigItem where
  first : Text × Text
  rest : List (Text × Text)
  deriving DecidableEq

def ConfigItem.pairs (item : ConfigItem) : List (Text × Text) := item.first :: item.rest

/-- The entries of a section, in their order. -/
inductive ConfigTree where
  | empty
  | scalar (key value : Text) (rest : ConfigTree)
  | sect (key : Text) (entries rest : ConfigTree)
  /-- the dashes stand `shift` columns to the right of the key, and the keys of the items
  `gap` more than two to the right of the dashes -/
  | list (key : Text) (shift gap : Nat) (items : List ConfigItem) (rest : ConfigTree)

namespace ConfigTree

def isKeyChar (c : Char) : Bool := c.isAlphanum || c = '_'

/-- Letters, digits and underscores. -/
def isKey (k : Text) : Bool := !k.isEmpty && k.all isKeyChar

/-- A plain scalar on one line. -/
def isScalar (v : Text) : Bool :=
  v.all (fun c => c ∉ ['#', '"', '\t', '\n', '\r']) && v.head?.any (· ≠ ' ') &&
    v.getLast?.any (· ≠ ' ')

def isPair (kv : Text × Text) : Bool := isKey kv.1 && isScalar kv.2

def isItem (item : ConfigItem) : Bool :=
  item.pairs.all isPair && decide (item.pairs.map Prod.fst).Nodup

/-- The keys of a section's entries. -/
def keys : ConfigTree → List Text
  | .empty => []
  | .scalar key _ rest | .sect key _ rest | .list key _ _ _ rest => key :: rest.keys

/-- Keys and values are such, and the keys of a section or an item are distinct. -/
def wellFormed : ConfigTree → Bool
  | .empty => true
  | .scalar key value rest => isPair (key, value) && !rest.keys.contains key && rest.wellFormed
  | .sect key entries rest =>
    isKey key && entries.wellFormed && !rest.keys.contains key && rest.wellFormed
  | .list key _ _ items rest =>
    isKey key && items.all isItem && !rest.keys.contains key && rest.wellFormed

/-! ## Printing -/

def pad (n : Nat) : Text := List.replicate n ' '

def pair (kv : Text × Text) : Text := kv.1 ++ ':' :: ' ' :: kv.2

/-- An item whose dash stands in the given column. -/
def printItem (indent gap : Nat) (item : ConfigItem) : List Text :=
  (pad indent ++ '-' :: ' ' :: (pad gap ++ pair item.first)) ::
    item.rest.map fun kv => pad (indent + 2 + gap) ++ pair kv

/-- The lines of a section's entries, from the given column on. -/
def print (step indent : Nat) : ConfigTree → List Text
  | .empty => []
  | .scalar key value rest => (pad indent ++ pair (key, value)) :: rest.print step indent
  | .sect key entries rest =>
    (pad indent ++ (key ++ [':'])) ::
      (entries.print step (indent + step) ++ rest.print step indent)
  | .list key shift gap items rest =>
    (pad indent ++ (key ++ [':'])) ::
      (items.flatMap (printItem (indent + shift) gap) ++ rest.print step indent)

/-- A blank line, or one with nothing but a comment. -/
def isNoise (line : Text) : Bool :=
  match line.dropWhile ConfigManager.isBlank with
  | [] => true
  | c :: _ => c = '#'

/-- The file holds the lines of the tree, with blank and comment lines anywhere. -/
def PrintedAs (tree : ConfigTree) (step : Nat) (content : Text) : Prop :=
  (ConfigManager.fileLines content).filter (!isNoise ·) = tree.print step 0

/-! ## Leaves -/

/-- The name of a position in a list. -/
def index (n : Nat) : Text := Nat.toDigits 10 n

/-- The leaves of a list, with the position of its first item. -/
def itemLeaves (n : Nat) : List ConfigItem → List (List Text × Text)
  | [] => []
  | item :: items => item.pairs.map (fun kv => ([index n, kv.1], kv.2)) ++ itemLeaves (n + 1) items

/-- The scalars of a section with their paths. -/
def leaves : ConfigTree → List (List Text × Text)
  | .empty => []
  | .scalar key value rest => ([key], value) :: rest.leaves
  | .sect key entries rest => entries.leaves.map (fun leaf => (key :: leaf.1, leaf.2)) ++ rest.leaves
  | .list key _ _ items rest =>
    (itemLeaves 0 items).map (fun leaf => (key :: leaf.1, leaf.2)) ++ rest.leaves

/-- `a.b.c` -/
def dotted (path : List Text) : Text := ['.'].intercalate path

/-! ## Characters -/

section

open ConfigManager

variable {k v body : Text} {i gap : Nat}

theorem ne_of_isKeyChar {c d : Char} (hc : isKeyChar c = true) (hd : isKeyChar d = false) :
    c ≠ d := by
  rintro rfl
  rw [hc] at hd
  cases hd

theorem isBlank_of_isKeyChar {c : Char} (hc : isKeyChar c = true) : isBlank c = false := by
  have hne := fun d => ne_of_isKeyChar (d := d) hc
  simp [isBlank, hne ' ' (by decide), hne '\t' (by decide), hne '\r' (by decide),
    hne '\n' (by decide)]

theorem isBlankOrQuote_of_isKeyChar {c : Char} (hc : isKeyChar c = true) :
    isBlankOrQuote c = false := by
  have hne := fun d => ne_of_isKeyChar (d := d) hc
  simp [isBlankOrQuote, isSpaceOrTab, hne ' ' (by decide), hne '\t' (by decide),
    hne '"' (by decide)]

theorem isKey_ne_nil (hk : isKey k = true) : k ≠ [] := by
  rintro rfl
  cases hk

theorem isKey_mem (hk : isKey k = true) {c : Char} (hc : c ∈ k) : isKeyChar c = true := by
  rw [isKey, Bool.and_eq_true, List.all_eq_true] at hk
  exact hk.2 c hc

theorem notMem_of_isKey (hk : isKey k = true) {c : Char} (hc : isKeyChar c = false) : c ∉ k :=
  fun hmem => ne_of_isKeyChar (isKey_mem hk hmem) hc rfl

/-- What a plain scalar's characters are not. -/
structure Plain (v : Text) : Prop where
  ne_nil : v ≠ []
  chars : ∀ c ∈ v, c ∉ ['#', '"', '\t', '\n', '\r']
  head : ∀ c ∈ v.head?, c ≠ ' '
  last : ∀ c ∈ v.getLast?, c ≠ ' '

theorem plain_of_isScalar (hv : isScalar v = true) : Plain v := by
  simp only [isScalar, Bool.and_eq_true, List.all_eq_true, decide_eq_true_eq] at hv
  obtain ⟨⟨hchars, hhead⟩, hlast⟩ := hv
  refine ⟨?_, hchars, ?_, ?_⟩
  · rintro rfl
    cases hhead
  · intro c hc
    rw [Option.mem_def] at hc
    simpa [hc] using hhead
  · intro c hc
    rw [Option.mem_def] at hc
    simpa [hc] using hlast

theorem Plain.isBlankOrQuote (hv : Plain v) {c : Char} (hc : c ∈ v) (hspace : c ≠ ' ') :
    isBlankOrQuote c = false := by
  have hchars := hv.chars c hc
  simp only [List.mem_cons, List.not_mem_nil, or_false, not_or] at hchars
  simp [ConfigManager.isBlankOrQuote, isSpaceOrTab, hspace, hchars]

theorem Plain.isBlank (hv : Plain v) {c : Char} (hc : c ∈ v) (hspace : c ≠ ' ') :
    isBlank c = false := by
  have hchars := hv.chars c hc
  simp only [List.mem_cons, List.not_mem_nil, or_false, not_or] at hchars
  simp [ConfigManager.isBlank, hspace, hchars]

/-! ## Lines -/

theorem dropWhile_eq_self {p : Char → Bool} {s : Text} (h : ∀ c ∈ s.head?, p c = false) :
    s.dropWhile p = s := by
  cases s with
  | nil => rfl
  | cons c s => rw [List.dropWhile_cons_of_neg (by simp [h c rfl])]

theorem rdropWhile_eq_self {p : Char → Bool} {s : Text} (h : ∀ c ∈ s.getLast?, p c = false) :
    s.rdropWhile p = s := by
  rw [List.rdropWhile_eq_self_iff]
  intro hne
  rw [h _ (List.getLast?_eq_some_getLast hne)]
  simp

/-- What a line says, apart from where it starts. -/
structure Body (body : Text) : Prop where
  ne_nil : body ≠ []
  noComment : '#' ∉ body
  head : ∀ c ∈ body.head?, isBlank c = false
  last : ∀ c ∈ body.getLast?, isBlank c = false

theorem cleanLine_pad (h : Body body) (i : Nat) : cleanLine (pad i ++ body) = some (i, body) := by
  have hpad : ∀ c ∈ pad i, isBlank c = true := by
    intro c hc
    rw [List.eq_of_mem_replicate hc]
    rfl
  have hcomment : (pad i ++ body).takeWhile (· ≠ '#') = pad i ++ body := by
    rw [List.takeWhile_eq_self_iff]
    intro c hc
    rw [decide_eq_true_eq]
    rintro rfl
    rcases List.mem_append.mp hc with hc | hc
    · cases List.eq_of_mem_replicate hc
    · exact h.noComment hc
  have hbody : (pad i ++ body).dropWhile isBlank = body := by
    rw [List.dropWhile_append_of_pos hpad, dropWhile_eq_self h.head]
  have hindent : ((pad i ++ body).takeWhile isBlank).length = i := by
    have hnone : body.takeWhile isBlank = [] := by
      cases body with
      | nil => rfl
      | cons c body => rw [List.takeWhile_cons_of_neg (by simp [h.head c rfl])]
    rw [List.takeWhile_append_of_pos hpad, hnone, List.append_nil, pad, List.length_replicate]
  simp only [cleanLine, hcomment, hbody, hindent, rdropWhile_eq_self h.last, List.isEmpty_iff,
    h.ne_nil, if_false]

theorem body_pair {kv : Text × Text} (h : isPair kv = true) : Body (pair kv) := by
  obtain ⟨hk, hv⟩ := Bool.and_eq_true_iff.mp h
  have hplain := plain_of_isScalar hv
  refine ⟨by simp [pair], ?_, ?_, ?_⟩
  · intro hmem
    rcases List.mem_append.mp hmem with hmem | hmem
    · exact notMem_of_isKey hk (by decide) hmem
    · have hvalue : '#' ∈ kv.2 := by simpa using hmem
      exact hplain.chars _ hvalue (by simp)
  · intro c hc
    rw [pair, List.head?_append_of_ne_nil _ (isKey_ne_nil hk)] at hc
    exact isBlank_of_isKeyChar (isKey_mem hk (List.mem_of_mem_head? hc))
  · intro c hc
    have hlast : c ∈ kv.2.getLast? := by
      rw [pair, List.getLast?_append_of_ne_nil _ (by simp), List.getLast?_cons_cons,
        List.getLast?_cons_of_ne_nil hplain.ne_nil] at hc
      exact hc
    exact hplain.isBlank (List.mem_of_getLast? hlast) (hplain.last c hlast)

theorem body_head (hk : isKey k = true) : Body (k ++ [':']) := by
  refine ⟨by simp, ?_, ?_, ?_⟩
  · intro hmem
    rcases List.mem_append.mp hmem with hmem | hmem
    · exact notMem_of_isKey hk (by decide) hmem
    · cases List.mem_singleton.mp hmem
  · intro c hc
    rw [List.head?_append_of_ne_nil _ (isKey_ne_nil hk)] at hc
    exact isBlank_of_isKeyChar (isKey_mem hk (List.mem_of_mem_head? hc))
  · intro c hc
    rw [List.getLast?_append_of_ne_nil _ (by simp)] at hc
    obtain rfl := Option.some.inj hc
    rfl

theorem body_item {kv : Text × Text} (h : isPair kv = true) (gap : Nat) :
    Body ('-' :: ' ' :: (pad gap ++ pair kv)) := by
  have hpair := body_pair h
  refine ⟨by simp, ?_, ?_, ?_⟩
  · intro hmem
    have hor : '#' ∈ pad gap ∨ '#' ∈ pair kv := by simpa using hmem
    rcases hor with hmem | hmem
    · cases List.eq_of_mem_replicate hmem
    · exact hpair.noComment hmem
  · intro c hc
    obtain rfl := Option.some.inj hc
    rfl
  · intro c hc
    apply hpair.last c
    rw [List.getLast?_cons_cons, List.getLast?_cons_of_ne_nil (by simp [hpair.ne_nil]),
      List.getLast?_append_of_ne_nil _ hpair.ne_nil] at hc
    exact hc

theorem splitColon_append (hk : ':' ∉ k) (value : Text) :
    splitColon (k ++ ':' :: value) = some (k, value) := by
  have hcolon : ∀ c ∈ k, decide (c ≠ ':') = true := by
    intro c hc
    rw [decide_eq_true_eq]
    rintro rfl
    exact hk hc
  rw [splitColon, List.dropWhile_append_of_pos hcolon, List.takeWhile_append_of_pos hcolon]
  simp

theorem splitColon_key (hk : isKey k = true) (value : Text) :
    splitColon (k ++ ':' :: value) = some (k, value) :=
  splitColon_append (notMem_of_isKey hk (by decide)) value

theorem trimValue_key (hk : isKey k = true) : trimValue k = k := by
  rw [trimValue, dropWhile_eq_self, rdropWhile_eq_self]
  · intro c hc
    exact isBlankOrQuote_of_isKeyChar (isKey_mem hk (List.mem_of_getLast? hc))
  · intro c hc
    exact isBlankOrQuote_of_isKeyChar (isKey_mem hk (List.mem_of_mem_head? hc))

theorem trimValue_scalar (hv : isScalar v = true) : trimValue (' ' :: v) = v := by
  have hplain := plain_of_isScalar hv
  rw [trimValue, List.dropWhile_cons_of_pos (by rfl), dropWhile_eq_self, rdropWhile_eq_self]
  · intro c hc
    exact hplain.isBlankOrQuote (List.mem_of_getLast? hc) (hplain.last c hc)
  · intro c hc
    exact hplain.isBlankOrQuote (List.mem_of_mem_head? hc) (hplain.head c hc)

theorem isListItem_key (hk : isKey k = true) (rest : Text) :
    Parser.isListItem (k ++ rest) = false := by
  cases k with
  | nil => cases hk
  | cons c k =>
      have hne := ne_of_isKeyChar (isKey_mem hk List.mem_cons_self) (d := '-') (by decide)
      unfold Parser.isListItem
      split
      next heq => exact absurd (List.cons.inj heq).1 hne
      next => rfl

/-! ## Paths -/

theorem dotted_append {p q : List Text} (hp : p ≠ []) (hq : q ≠ []) :
    dotted (p ++ q) = joined (dotted p) (dotted q) := by
  induction p with
  | nil => exact absurd rfl hp
  | cons a p ih =>
      cases p with
      | nil =>
          obtain ⟨b, q, rfl⟩ := List.exists_cons_of_ne_nil hq
          simp [dotted, joined]
      | cons b p =>
          have hrest := ih (by simp)
          simp only [dotted, joined, List.cons_append, List.intercalate_cons_cons,
            List.append_assoc] at hrest ⊢
          rw [hrest]

theorem dotted_singleton (k : Text) : dotted [k] = k := List.intercalate_singleton

theorem dotted_ne_nil {p : List Text} (hp : p ≠ []) (h : ∀ k ∈ p, k ≠ []) : dotted p ≠ [] := by
  obtain ⟨k, p, rfl⟩ := List.exists_cons_of_ne_nil hp
  cases p with
  | nil =>
      rw [dotted_singleton]
      exact h k List.mem_cons_self
  | cons b p => simp [dotted]

/-- The names of the open sections, the outermost first. -/
def names (stack : List (Nat × Text)) : List Text := (stack.map Prod.snd).reverse

theorem names_cons (i : Nat) (k : Text) (stack : List (Nat × Text)) :
    names ((i, k) :: stack) = names stack ++ [k] := by
  simp [names]

theorem currentSection_eq {stack : List (Nat × Text)} (h : ∀ k ∈ names stack, k ≠ []) :
    currentSection stack = dotted (names stack) := by
  induction stack with
  | nil => rfl
  | cons s stack ih =>
      obtain ⟨i, k⟩ := s
      rw [names_cons] at h ⊢
      have hrest := ih fun k hk => h k (List.mem_append_left _ hk)
      have hunfold : currentSection ((i, k) :: stack) =
          if (currentSection stack).isEmpty then k else joined (currentSection stack) k := rfl
      rw [hunfold, hrest]
      by_cases hempty : names stack = []
      · rw [hempty]
        exact (dotted_singleton k).symm
      · have hne := dotted_ne_nil hempty fun k hk => h k (List.mem_append_left _ hk)
        rw [dotted_append hempty (by simp), dotted_singleton, if_neg]
        simpa using hne

/-- The key of an entry of the innermost section. -/
theorem joined_currentSection {stack : List (Nat × Text)} (h : ∀ k ∈ names stack, k ≠ [])
    (key : Text) :
    (if (currentSection stack).isEmpty then key else joined (currentSection stack) key) =
      dotted (names stack ++ [key]) := by
  rw [currentSection_eq h]
  by_cases hempty : names stack = []
  · rw [hempty, List.nil_append, dotted_singleton]
    rfl
  · rw [dotted_append hempty (by simp), dotted_singleton, if_neg]
    simpa using dotted_ne_nil hempty h

theorem toString_index (n : Nat) : (toString (n : Int)).toList = index n := Nat.toList_repr

/-! ## Reading one line -/

variable {st : Parser} {base : List (Nat × Text)} {kv : Text × Text}

/-- The reader is about to read an entry of the section `base`, in the given column. -/
structure At (st : Parser) (indent : Nat) (base : List (Nat × Text)) : Prop where
  sections : st.sectionStack.dropWhile (fun p => indent ≤ p.1) = base
  list : st.listSection = [] ∨ (indent : Int) ≤ st.listIndent

/-- The reader is in a section, and in no list. -/
structure In (st : Parser) (stack : List (Nat × Text)) : Prop where
  sections : st.sectionStack = stack
  list : st.listSection = []

theorem At.enter (h : At st i base) :
    In ((st.closeList i).popSections i) base ∧
      ((st.closeList i).popSections i).config = st.config := by
  unfold Parser.closeList
  split
  next hclose => exact ⟨⟨h.sections, rfl⟩, rfl⟩
  next hopen =>
    refine ⟨⟨h.sections, ?_⟩, rfl⟩
    rcases h.list with hnil | hle
    · exact hnil
    · have hnil : st.listSection = [] := by simpa [hle] using hopen
      exact hnil

theorem At.continuesItem (h : At st i base) : st.continuesItem i = false := by
  rcases h.list with hnil | hle
  · simp [Parser.continuesItem, hnil]
  · have hnot : ¬ st.listIndent < i := by omega
    simp [Parser.continuesItem, hnot]

theorem readLine_pad (h : Body body) (st : Parser) (i : Nat) :
    st.readLine (pad i ++ body) =
      if Parser.isListItem body then st.listItem i body
      else if st.continuesItem i then st.putItem body
      else st.sectionLine i body := by
  rw [Parser.readLine, cleanLine_pad h]

/-- The head of a section or of a list opens a section. -/
theorem readLine_head (h : At st i base) (hk : isKey k = true) :
    In (st.readLine (pad i ++ (k ++ [':']))) ((i, k) :: base) ∧
      (st.readLine (pad i ++ (k ++ [':']))).config = st.config := by
  obtain ⟨hin, hconfig⟩ := h.enter
  rw [readLine_pad (body_head hk), isListItem_key hk, h.continuesItem]
  simp only [Bool.false_eq_true, if_false, Parser.sectionLine, splitColon_key hk,
    trimValue_key hk]
  refine ⟨⟨?_, hin.list⟩, hconfig⟩
  exact congrArg (List.cons (i, k)) hin.sections

/-- A scalar is stored under its dotted path. -/
theorem readLine_scalar (h : At st i base) (hnames : ∀ n ∈ names base, n ≠ [])
    (hkv : isPair kv = true) :
    In (st.readLine (pad i ++ pair kv)) base ∧
      (st.readLine (pad i ++ pair kv)).config =
        st.config.set (dotted (names base ++ [kv.1])) kv.2 := by
  obtain ⟨hin, hconfig⟩ := h.enter
  obtain ⟨hk, hv⟩ := Bool.and_eq_true_iff.mp hkv
  have hvalue : kv.2.isEmpty = false := by
    rw [List.isEmpty_eq_false_iff]
    exact (plain_of_isScalar hv).ne_nil
  rw [readLine_pad (body_pair hkv), pair, isListItem_key hk, h.continuesItem]
  simp only [Bool.false_eq_true, if_false, Parser.sectionLine, splitColon_key hk,
    trimValue_key hk, trimValue_scalar hv, hvalue, Bool.false_and, hin.sections, hconfig,
    joined_currentSection hnames]
  exact ⟨⟨rfl, hin.list⟩, trivial⟩

/-! ## Reading a list -/

/-- The reader is in the item `n` of a list whose dashes stand in the given column. -/
structure InItem (st : Parser) (path : List Text) (indent n : Nat) (stack : List (Nat × Text)) :
    Prop where
  sections : st.sectionStack = stack
  listSection : st.listSection = dotted path
  listIndent : st.listIndent = indent
  listIndex : st.listIndex = n

/-- The keys of an item are stored under its position. -/
theorem putItem_pair {path : List Text} {n : Nat} {stack : List (Nat × Text)} {indent : Nat}
    (h : InItem st path indent n stack) (hpath : path ≠ []) (hkv : isPair kv = true) :
    InItem (st.putItem (pair kv)) path indent n stack ∧
      (st.putItem (pair kv)).config =
        st.config.set (dotted (path ++ [index n, kv.1])) kv.2 := by
  obtain ⟨hk, hv⟩ := Bool.and_eq_true_iff.mp hkv
  have hkey : joined (joined (dotted path) (index n)) kv.1 =
      dotted (path ++ [index n, kv.1]) := by
    rw [dotted_append hpath (by simp)]
    simp [joined, dotted]
  simp only [Parser.putItem, pair, splitColon_key hk, trimValue_key hk, trimValue_scalar hv,
    h.listSection, h.listIndex, toString_index, hkey]
  exact ⟨⟨h.sections, rfl, h.listIndent, rfl⟩, trivial⟩

/-- The pairs are stored in their order. -/
def setAll (d : Dict Text Text) (l : List (Text × Text)) : Dict Text Text :=
  l.foldl (fun d p => d.set p.1 p.2) d

theorem setAll_append (d : Dict Text Text) (l l' : List (Text × Text)) :
    setAll d (l ++ l') = setAll (setAll d l) l' := List.foldl_append

/-- The leaves below a section, with their dotted paths. -/
def under (path : List Text) (l : List (List Text × Text)) : List (Text × Text) :=
  l.map fun leaf => (dotted (path ++ leaf.1), leaf.2)

theorem readLine_rest {path : List Text} {n : Nat} {stack : List (Nat × Text)} {indent : Nat}
    (h : InItem st path indent n stack) (hpath : path ≠ []) (hsegments : ∀ k ∈ path, k ≠ [])
    (hkv : isPair kv = true) :
    st.readLine (pad (indent + 2 + gap) ++ pair kv) = st.putItem (pair kv) := by
  have hk := (Bool.and_eq_true_iff.mp hkv).1
  have hcontinues : st.continuesItem (indent + 2 + gap) = true := by
    have hne := dotted_ne_nil hpath hsegments
    simp only [Parser.continuesItem, h.listSection, h.listIndent, h.listIndex]
    simp only [List.isEmpty_eq_false_iff.mpr hne, Bool.not_false, Bool.true_and, Bool.and_eq_true,
      decide_eq_true_eq]
    omega
  rw [readLine_pad (body_pair hkv), pair, isListItem_key hk, hcontinues]
  simp

theorem readLine_dash (st : Parser) {indent : Nat} (hkv : isPair kv = true) :
    st.readLine (pad indent ++ '-' :: ' ' :: (pad gap ++ pair kv)) =
      st.listItem indent ('-' :: ' ' :: (pad gap ++ pair kv)) := by
  rw [readLine_pad (body_item hkv gap)]
  rfl

variable (gap) in
theorem readRest {path : List Text} {n : Nat} {stack : List (Nat × Text)} {indent : Nat}
    (hpath : path ≠ []) (hsegments : ∀ k ∈ path, k ≠ []) {rest : List (Text × Text)}
    (hrest : ∀ kv ∈ rest, isPair kv = true) {st : Parser} (h : InItem st path indent n stack) :
    let st' := (rest.map fun kv => pad (indent + 2 + gap) ++ pair kv).foldl Parser.readLine st
    InItem st' path indent n stack ∧
      st'.config = setAll st.config (under path (rest.map fun kv => ([index n, kv.1], kv.2))) := by
  induction rest generalizing st with
  | nil => exact ⟨h, rfl⟩
  | cons kv rest ih =>
      have hkv := hrest kv List.mem_cons_self
      obtain ⟨hitem, hconfig⟩ := putItem_pair h hpath hkv
      obtain ⟨hin, hall⟩ := ih (fun kv hmem => hrest kv (List.mem_cons_of_mem _ hmem)) hitem
      rw [hconfig] at hall
      rw [List.map_cons, List.foldl_cons, readLine_rest h hpath hsegments hkv]
      exact ⟨hin, hall⟩

/-- One item, once its dash has set the position. -/
theorem readItem {path : List Text} {n : Nat} {stack : List (Nat × Text)} {indent : Nat}
    (hpath : path ≠ []) (hsegments : ∀ k ∈ path, k ≠ []) {item : ConfigItem}
    (hitem : ∀ kv ∈ item.pairs, isPair kv = true) {st st₁ : Parser}
    (hdash : st.listItem indent ('-' :: ' ' :: (pad gap ++ pair item.first)) =
      st₁.putItem (pair item.first))
    (h : InItem st₁ path indent n stack) :
    let st' := (printItem indent gap item).foldl Parser.readLine st
    InItem st' path indent n stack ∧
      st'.config = setAll st₁.config
        (under path (item.pairs.map fun kv => ([index n, kv.1], kv.2))) := by
  have hfirst := hitem item.first List.mem_cons_self
  obtain ⟨hput, hconfig⟩ := putItem_pair h hpath hfirst
  obtain ⟨hin, hall⟩ := readRest gap hpath hsegments
    (fun kv hmem => hitem kv (List.mem_cons_of_mem _ hmem)) hput
  rw [hconfig] at hall
  rw [printItem, List.foldl_cons, readLine_dash st hfirst, hdash]
  exact ⟨hin, hall⟩

theorem dropDash {kv : Text × Text} (hkv : isPair kv = true) (gap : Nat) :
    (('-' :: ' ' :: (pad gap ++ pair kv)).drop 2).dropWhile isSpaceOrTab = pair kv := by
  have hk := (Bool.and_eq_true_iff.mp hkv).1
  have hpad : ∀ c ∈ pad gap, isSpaceOrTab c = true := by
    intro c hc
    rw [List.eq_of_mem_replicate hc]
    rfl
  have hhead : ∀ c ∈ (pair kv).head?, isSpaceOrTab c = false := by
    intro c hc
    rw [pair, List.head?_append_of_ne_nil _ (isKey_ne_nil hk)] at hc
    have hblank := isBlankOrQuote_of_isKeyChar (isKey_mem hk (List.mem_of_mem_head? hc))
    exact (Bool.or_eq_false_iff.mp hblank).1
  rw [List.drop_succ_cons, List.drop_succ_cons, List.drop_zero,
    List.dropWhile_append_of_pos hpad, dropWhile_eq_self hhead]

/-- The first dash opens the list. -/
theorem listItem_first {stack : List (Nat × Text)} (h : In st stack)
    (hnames : ∀ n ∈ names stack, n ≠ []) {kv : Text × Text} (hkv : isPair kv = true)
    (indent gap : Nat) :
    ∃ st₁ : Parser, st.listItem indent ('-' :: ' ' :: (pad gap ++ pair kv)) =
        st₁.putItem (pair kv) ∧
      InItem st₁ (names stack) indent 0 stack ∧ st₁.config = st.config := by
  refine ⟨{ st with
    listSection := currentSection st.sectionStack, listIndex := 0, listIndent := indent }, ?_, ?_,
    rfl⟩
  · rw [Parser.listItem, dropDash hkv, h.list]
    rfl
  · refine ⟨h.sections, ?_, rfl, rfl⟩
    rw [← currentSection_eq hnames, ← h.sections]

/-- A later dash is the next item. -/
theorem listItem_next {path : List Text} {n : Nat} {stack : List (Nat × Text)} {indent : Nat}
    (h : InItem st path indent n stack) (hpath : path ≠ []) (hsegments : ∀ k ∈ path, k ≠ [])
    {kv : Text × Text} (hkv : isPair kv = true) (gap : Nat) :
    ∃ st₁ : Parser, st.listItem indent ('-' :: ' ' :: (pad gap ++ pair kv)) =
        st₁.putItem (pair kv) ∧
      InItem st₁ path indent (n + 1) stack ∧ st₁.config = st.config := by
  have hopen : st.listSection.isEmpty = false := by
    rw [h.listSection]
    exact List.isEmpty_eq_false_iff.mpr (dotted_ne_nil hpath hsegments)
  refine ⟨{ st with listIndex := st.listIndex + 1 }, ?_, ?_, rfl⟩
  · rw [Parser.listItem, dropDash hkv, hopen, h.listIndent]
    simp
  · refine ⟨h.sections, h.listSection, h.listIndent, ?_⟩
    rw [h.listIndex]
    rfl

theorem under_append (path : List Text) (l l' : List (List Text × Text)) :
    under path (l ++ l') = under path l ++ under path l' := List.map_append

variable (gap) in
/-- The items after one. -/
theorem readItems {path : List Text} {stack : List (Nat × Text)} {indent : Nat}
    (hpath : path ≠ []) (hsegments : ∀ k ∈ path, k ≠ []) {items : List ConfigItem}
    (hitems : ∀ item ∈ items, ∀ kv ∈ item.pairs, isPair kv = true) {st : Parser} {n : Nat}
    (h : InItem st path indent n stack) :
    let st' := (items.flatMap (printItem indent gap)).foldl Parser.readLine st
    (∃ m, InItem st' path indent m stack) ∧
      st'.config = setAll st.config (under path (itemLeaves (n + 1) items)) := by
  induction items generalizing st n with
  | nil => exact ⟨⟨n, h⟩, rfl⟩
  | cons item items ih =>
      have hitem := hitems item List.mem_cons_self
      obtain ⟨st₁, hdash, hnext, hsame⟩ :=
        listItem_next h hpath hsegments (hitem item.first List.mem_cons_self) gap
      obtain ⟨hin, hconfig⟩ := readItem hpath hsegments hitem hdash hnext
      obtain ⟨hlast, hall⟩ :=
        ih (fun item hmem => hitems item (List.mem_cons_of_mem _ hmem)) hin
      rw [List.flatMap_cons, List.foldl_append, itemLeaves, under_append, setAll_append, ← hsame,
        ← hconfig]
      exact ⟨hlast, hall⟩

variable (gap) in
/-- A whole list, after the line of its key. -/
theorem readList {stack : List (Nat × Text)} (indent : Nat) (hstack : names stack ≠ [])
    (hnames : ∀ n ∈ names stack, n ≠ []) {items : List ConfigItem}
    (hitems : ∀ item ∈ items, ∀ kv ∈ item.pairs, isPair kv = true) {st : Parser}
    (h : In st stack) :
    let st' := (items.flatMap (printItem indent gap)).foldl Parser.readLine st
    st'.sectionStack = stack ∧ (st'.listSection = [] ∨ st'.listIndent = indent) ∧
      st'.config = setAll st.config (under (names stack) (itemLeaves 0 items)) := by
  cases items with
  | nil => exact ⟨h.sections, .inl h.list, rfl⟩
  | cons item items =>
      have hitem := hitems item List.mem_cons_self
      obtain ⟨st₁, hdash, hfirst, hsame⟩ :=
        listItem_first h hnames (hitem item.first List.mem_cons_self) indent gap
      obtain ⟨hin, hconfig⟩ := readItem hstack hnames hitem hdash hfirst
      obtain ⟨⟨m, hlast⟩, hall⟩ := readItems gap hstack hnames
        (fun item hmem => hitems item (List.mem_cons_of_mem _ hmem)) hin
      rw [List.flatMap_cons, List.foldl_append, itemLeaves, under_append, setAll_append, ← hsame,
        ← hconfig]
      exact ⟨hlast.sections, .inr hlast.listIndent, hall⟩

/-! ## Reading a tree -/

theorem At.of_in {st' : Parser} (h : At st i base) (hin : In st' base) : At st' i base := by
  refine ⟨?_, .inl hin.list⟩
  rw [hin.sections, ← h.sections, List.dropWhile_idempotent]

/-- What is further right is left by a line further left. -/
theorem At.dedent {step : Nat} {st' : Parser} (h : At st i base)
    (hdeep : At st' (i + step) ((i, k) :: base)) : At st' i base := by
  constructor
  · have hself : base.dropWhile (fun p => i ≤ p.1) = base := by
      rw [← h.sections, List.dropWhile_idempotent]
    have htwo : st'.sectionStack.dropWhile (fun p => i ≤ p.1) =
        (st'.sectionStack.dropWhile (fun p => i + step ≤ p.1)).dropWhile (fun p => i ≤ p.1) := by
      induction st'.sectionStack with
      | nil => rfl
      | cons p stack ih =>
          by_cases hle : i + step ≤ p.1
          · have hle' : i ≤ p.1 := by omega
            rw [List.dropWhile_cons_of_pos (by simpa using hle'), ih,
              List.dropWhile_cons_of_pos (by simpa using hle)]
          · rw [List.dropWhile_cons_of_neg (l := stack) (p := fun p => i + step ≤ p.1)
              (by simpa using hle)]
    rw [htwo, hdeep.sections, List.dropWhile_cons_of_pos (by simp), hself]
  · refine hdeep.list.imp_right fun hle => ?_
    omega

theorem under_cons (path : List Text) (k : Text) (l : List (List Text × Text)) :
    under (path ++ [k]) l = under path (l.map fun leaf => (k :: leaf.1, leaf.2)) := by
  simp only [under, List.map_map]
  apply List.map_congr_left
  intro leaf _
  simp

theorem names_cons_ne_nil (i : Nat) {key : Text} {base : List (Nat × Text)}
    (hnames : ∀ n ∈ names base, n ≠ []) (hk : isKey key = true) :
    ∀ n ∈ names ((i, key) :: base), n ≠ [] := by
  rw [names_cons]
  intro n hn
  rcases List.mem_append.mp hn with hn | hn
  · exact hnames n hn
  · rw [List.mem_singleton.mp hn]
    exact isKey_ne_nil hk

/-- On the lines of a tree the reader stores its leaves, and is then in the same section. -/
theorem readTree {step : Nat} (hstep : 0 < step) {tree : ConfigTree}
    (hwf : tree.wellFormed = true) {st : Parser} {i : Nat} {base : List (Nat × Text)}
    (h : At st i base) (hnames : ∀ n ∈ names base, n ≠ []) :
    let st' := (tree.print step i).foldl Parser.readLine st
    At st' i base ∧ st'.config = setAll st.config (under (names base) tree.leaves) := by
  induction tree generalizing st i base with
  | empty => exact ⟨h, rfl⟩
  | scalar key value rest ih =>
      simp only [wellFormed, Bool.and_eq_true] at hwf
      obtain ⟨hin, hconfig⟩ := readLine_scalar h hnames hwf.1.1
      obtain ⟨hat, hrest⟩ := ih hwf.2 (h.of_in hin) hnames
      rw [hconfig] at hrest
      exact ⟨hat, hrest⟩
  | sect key entries rest ihEntries ihRest =>
      simp only [wellFormed, Bool.and_eq_true] at hwf
      obtain ⟨⟨⟨hk, hentries⟩, -⟩, hrest⟩ := hwf
      obtain ⟨hin, hconfig⟩ := readLine_head h hk
      have hinner := names_cons_ne_nil i hnames hk
      have hatInner : At (st.readLine (pad i ++ (key ++ [':']))) (i + step) ((i, key) :: base) := by
        refine ⟨?_, .inl hin.list⟩
        rw [hin.sections, List.dropWhile_cons_of_neg]
        have hlt : ¬ i + step ≤ i := by omega
        simpa using hlt
      obtain ⟨hdeep, hall⟩ := ihEntries hentries hatInner hinner
      obtain ⟨hat, hallRest⟩ := ihRest hrest (h.dedent hdeep) hnames
      rw [hconfig, names_cons, under_cons] at hall
      rw [hall, ← setAll_append, ← under_append] at hallRest
      rw [print, List.foldl_cons, List.foldl_append, leaves]
      exact ⟨hat, hallRest⟩
  | list key shift gap items rest ih =>
      simp only [wellFormed, Bool.and_eq_true] at hwf
      obtain ⟨⟨⟨hk, hitems⟩, -⟩, hrest⟩ := hwf
      obtain ⟨hin, hconfig⟩ := readLine_head h hk
      have hinner := names_cons_ne_nil i hnames hk
      have hpairs : ∀ item ∈ items, ∀ kv ∈ item.pairs, isPair kv = true := by
        intro item hitem kv hkv
        have hboth := List.all_eq_true.mp hitems item hitem
        rw [isItem, Bool.and_eq_true] at hboth
        exact List.all_eq_true.mp hboth.1 kv hkv
      obtain ⟨hsections, hlist, hall⟩ := readList gap (i + shift)
        (by rw [names_cons]; simp) hinner hpairs hin
      have hat₂ : At ((items.flatMap (printItem (i + shift) gap)).foldl Parser.readLine
          (st.readLine (pad i ++ (key ++ [':'])))) i base := by
        constructor
        · rw [hsections, List.dropWhile_cons_of_pos (by simp), ← h.sections,
            List.dropWhile_idempotent]
        · refine hlist.imp_right fun heq => ?_
          rw [heq]
          omega
      obtain ⟨hat, hallRest⟩ := ih hrest hat₂ hnames
      rw [hconfig, names_cons, under_cons] at hall
      rw [hall, ← setAll_append, ← under_append] at hallRest
      rw [print, List.foldl_cons, List.foldl_append, leaves]
      exact ⟨hat, hallRest⟩

/-! ## Blank and comment lines -/

theorem cleanLine_of_isNoise {line : Text} (h : isNoise line = true) : cleanLine line = none := by
  have hblank : ((line.takeWhile (· ≠ '#')).dropWhile isBlank) = [] := by
    induction line with
    | nil => rfl
    | cons c line ih =>
        by_cases hc : isBlank c = true
        · have hne : c ≠ '#' := by
            rintro rfl
            cases hc
          rw [isNoise, List.dropWhile_cons_of_pos hc] at h
          rw [List.takeWhile_cons_of_pos (by simpa using hne), List.dropWhile_cons_of_pos hc]
          exact ih h
        · rw [isNoise, List.dropWhile_cons_of_neg hc] at h
          obtain rfl : c = '#' := by simpa using h
          rfl
  simp only [cleanLine, hblank, List.isEmpty_nil, if_true]

theorem readLine_of_isNoise {line : Text} (h : isNoise line = true) (st : Parser) :
    st.readLine line = st := by
  rw [Parser.readLine, cleanLine_of_isNoise h]

theorem foldl_readLine_filter (lines : List Text) (st : Parser) :
    lines.foldl Parser.readLine st = (lines.filter (!isNoise ·)).foldl Parser.readLine st := by
  induction lines generalizing st with
  | nil => rfl
  | cons line lines ih =>
      cases hnoise : isNoise line with
      | true =>
          rw [List.foldl_cons, readLine_of_isNoise hnoise, List.filter_cons_of_neg (by simp [hnoise]),
            ih]
      | false =>
          rw [List.foldl_cons, List.filter_cons_of_pos (by simp [hnoise]), List.foldl_cons, ih]

/-! ## Different leaves have different paths -/

/-- A path that can be told from its dotted form. -/
structure Segments (path : List Text) : Prop where
  ne_nil : path ≠ []
  noDot : ∀ k ∈ path, '.' ∉ k

theorem dotted_inj {p q : List Text} (hp : Segments p) (hq : Segments q)
    (h : dotted p = dotted q) : p = q := by
  have hsplit := List.splitOn_intercalate '.' hp.noDot hp.ne_nil
  rw [← dotted, h, dotted, List.splitOn_intercalate '.' hq.noDot hq.ne_nil] at hsplit
  exact hsplit.symm

theorem segments_singleton (hk : isKey k = true) : Segments [k] := by
  refine ⟨by simp, ?_⟩
  intro k' hk'
  rw [List.mem_singleton.mp hk']
  exact notMem_of_isKey hk (by decide)

theorem Segments.cons {path : List Text} (h : Segments path) (hk : '.' ∉ k) :
    Segments (k :: path) := by
  refine ⟨by simp, ?_⟩
  intro k' hk'
  rcases List.mem_cons.mp hk' with rfl | hk'
  · exact hk
  · exact h.noDot k' hk'

theorem index_noDot (n : Nat) : '.' ∉ index n := by
  intro h
  have hdigit := Nat.isDigit_of_mem_toDigits (by decide) (by decide) h
  cases hdigit

theorem index_injective {m n : Nat} (h : index m = index n) : m = n := by
  have hm := Nat.ofDigitChars_toDigits (n := m) (b := 10) (by decide) (by decide)
  rw [show Nat.toDigits 10 m = Nat.toDigits 10 n from h,
    Nat.ofDigitChars_toDigits (by decide) (by decide)] at hm
  exact hm.symm

theorem mem_itemLeaves {items : List ConfigItem} {n : Nat} {leaf : List Text × Text}
    (h : leaf ∈ itemLeaves n items) :
    ∃ m, n ≤ m ∧ ∃ item ∈ items, ∃ kv ∈ item.pairs, leaf = ([index m, kv.1], kv.2) := by
  induction items generalizing n with
  | nil => cases h
  | cons item items ih =>
      rcases List.mem_append.mp h with h | h
      · obtain ⟨kv, hkv, rfl⟩ := List.mem_map.mp h
        exact ⟨n, le_rfl, item, List.mem_cons_self, kv, hkv, rfl⟩
      · obtain ⟨m, hm, item, hitem, kv, hkv, rfl⟩ := ih h
        exact ⟨m, by omega, item, List.mem_cons_of_mem _ hitem, kv, hkv, rfl⟩

theorem nodup_itemLeaves {items : List ConfigItem} (h : ∀ item ∈ items, isItem item = true)
    (n : Nat) : ((itemLeaves n items).map Prod.fst).Nodup := by
  induction items generalizing n with
  | nil => exact List.nodup_nil
  | cons item items ih =>
      have hitem := h item List.mem_cons_self
      rw [isItem, Bool.and_eq_true, decide_eq_true_eq] at hitem
      rw [itemLeaves, List.map_append, List.map_map]
      apply List.nodup_append.mpr
      refine ⟨?_, ih (fun item hmem => h item (List.mem_cons_of_mem _ hmem)) (n + 1), ?_⟩
      · have hpaths : (item.pairs.map (Prod.fst ∘ fun kv => ([index n, kv.1], kv.2))) =
            (item.pairs.map Prod.fst).map fun k => [index n, k] := by
          rw [List.map_map]
          rfl
        rw [hpaths]
        apply hitem.2.map
        intro k k' heq
        simpa using heq
      · rintro path hpath path' hpath' rfl
        obtain ⟨kv, -, rfl⟩ := List.mem_map.mp hpath
        obtain ⟨leaf, hleaf, heq⟩ := List.mem_map.mp hpath'
        obtain ⟨m, hm, item', -, kv', -, rfl⟩ := mem_itemLeaves hleaf
        have hindex := index_injective (List.cons.inj heq).1
        omega

theorem mem_leaves {tree : ConfigTree} (hwf : tree.wellFormed = true)
    {leaf : List Text × Text} (h : leaf ∈ tree.leaves) :
    Segments leaf.1 ∧ ∃ k ∈ tree.keys, ∃ path, leaf.1 = k :: path := by
  induction tree generalizing leaf with
  | empty => cases h
  | scalar key value rest ih =>
      simp only [wellFormed, Bool.and_eq_true] at hwf
      rcases List.mem_cons.mp h with rfl | h
      · have hk := (Bool.and_eq_true_iff.mp hwf.1.1).1
        exact ⟨segments_singleton hk, key, List.mem_cons_self, [], rfl⟩
      · obtain ⟨hsegments, k, hk, path, hpath⟩ := ih hwf.2 h
        exact ⟨hsegments, k, List.mem_cons_of_mem _ hk, path, hpath⟩
  | sect key entries rest ihEntries ihRest =>
      simp only [wellFormed, Bool.and_eq_true] at hwf
      rcases List.mem_append.mp h with h | h
      · obtain ⟨leaf, hleaf, rfl⟩ := List.mem_map.mp h
        have hsegments := (ihEntries hwf.1.1.2 hleaf).1
        exact ⟨hsegments.cons (notMem_of_isKey hwf.1.1.1 (by decide)), key, List.mem_cons_self, _,
          rfl⟩
      · obtain ⟨hsegments, k, hk, path, hpath⟩ := ihRest hwf.2 h
        exact ⟨hsegments, k, List.mem_cons_of_mem _ hk, path, hpath⟩
  | list key shift gap items rest ih =>
      simp only [wellFormed, Bool.and_eq_true] at hwf
      rcases List.mem_append.mp h with h | h
      · obtain ⟨leaf, hleaf, rfl⟩ := List.mem_map.mp h
        obtain ⟨m, -, item, hitem, kv, hkv, rfl⟩ := mem_itemLeaves hleaf
        have hboth := List.all_eq_true.mp hwf.1.1.2 item hitem
        rw [isItem, Bool.and_eq_true] at hboth
        have hpair := List.all_eq_true.mp hboth.1 kv hkv
        have hsegments := segments_singleton (Bool.and_eq_true_iff.mp hpair).1
        exact ⟨(hsegments.cons (index_noDot m)).cons (notMem_of_isKey hwf.1.1.1 (by decide)), key,
          List.mem_cons_self, _, rfl⟩
      · obtain ⟨hsegments, k, hk, path, hpath⟩ := ih hwf.2 h
        exact ⟨hsegments, k, List.mem_cons_of_mem _ hk, path, hpath⟩

/-- The leaves under one key, and those of the other entries. -/
theorem nodup_cons_leaves {l : List (List Text × Text)} {rest : ConfigTree}
    (hrest : rest.wellFormed = true) (hkey : k ∉ rest.keys) (hl : (l.map Prod.fst).Nodup)
    (hall : (rest.leaves.map Prod.fst).Nodup) :
    ((l.map (fun leaf => (k :: leaf.1, leaf.2)) ++ rest.leaves).map Prod.fst).Nodup := by
  rw [List.map_append, List.map_map]
  apply List.nodup_append.mpr
  refine ⟨?_, hall, ?_⟩
  · have hpaths : l.map (Prod.fst ∘ fun leaf => (k :: leaf.1, leaf.2)) =
        (l.map Prod.fst).map (List.cons k) := by
      rw [List.map_map]
      rfl
    rw [hpaths]
    exact hl.map List.cons_injective
  · rintro path hpath path' hpath' rfl
    obtain ⟨leaf, -, rfl⟩ := List.mem_map.mp hpath
    obtain ⟨leaf', hleaf', heq⟩ := List.mem_map.mp hpath'
    obtain ⟨-, k', hk', path, hk⟩ := mem_leaves hrest hleaf'
    rw [hk] at heq
    obtain rfl := (List.cons.inj heq).1
    exact hkey hk'

theorem nodup_leaves {tree : ConfigTree} (hwf : tree.wellFormed = true) :
    (tree.leaves.map Prod.fst).Nodup := by
  induction tree with
  | empty => exact List.nodup_nil
  | scalar key value rest ih =>
      simp only [wellFormed, Bool.and_eq_true, Bool.not_eq_true', List.contains_eq_mem,
        decide_eq_false_iff_not] at hwf
      exact nodup_cons_leaves (l := [([], value)]) hwf.2 hwf.1.2 (List.nodup_singleton _) (ih hwf.2)
  | sect key entries rest ihEntries ihRest =>
      simp only [wellFormed, Bool.and_eq_true, Bool.not_eq_true', List.contains_eq_mem,
        decide_eq_false_iff_not] at hwf
      exact nodup_cons_leaves hwf.2 hwf.1.2 (ihEntries hwf.1.1.2) (ihRest hwf.2)
  | list key shift gap items rest ih =>
      simp only [wellFormed, Bool.and_eq_true, Bool.not_eq_true', List.contains_eq_mem,
        decide_eq_false_iff_not] at hwf
      exact nodup_cons_leaves hwf.2 hwf.1.2
        (nodup_itemLeaves (List.all_eq_true.mp hwf.1.1.2) 0) (ih hwf.2)

end

/-! ## The file -/

open ConfigManager

/-- After a printed tree is loaded, the reader has the scalar of each leaf under its path,
and nothing under any other key. -/
theorem loadFromFile_printed {tree : ConfigTree} (hwf : tree.wellFormed = true) {step : Nat}
    (hstep : 0 < step) {content : Text} (hprinted : tree.PrintedAs step content) :
    ∃ cfg, loadFromFile {} (some content) = (cfg, true) ∧
      (∀ leaf ∈ tree.leaves, cfg.has (dotted leaf.1) = true ∧ cfg.get (dotted leaf.1) = leaf.2) ∧
      ∀ key, (∀ leaf ∈ tree.leaves, key ≠ dotted leaf.1) → cfg.has key = false := by
  have hat : At { config := ∅ } 0 [] := ⟨rfl, .inl rfl⟩
  obtain ⟨-, hconfig⟩ := readTree hstep hwf hat (by simp [names])
  rw [← hprinted, ← foldl_readLine_filter] at hconfig
  have hunder : under (names []) tree.leaves =
      tree.leaves.map fun leaf => (dotted leaf.1, leaf.2) := rfl
  rw [hunder] at hconfig
  have hnodup : ((tree.leaves.map fun leaf => (dotted leaf.1, leaf.2)).map Prod.fst).Nodup := by
    have hpaths : (tree.leaves.map fun leaf => (dotted leaf.1, leaf.2)).map Prod.fst =
        (tree.leaves.map Prod.fst).map dotted := by
      rw [List.map_map, List.map_map]
      rfl
    rw [hpaths]
    apply List.Nodup.map_on _ (nodup_leaves hwf)
    intro p hp q hq heq
    obtain ⟨leaf, hleaf, rfl⟩ := List.mem_map.mp hp
    obtain ⟨leaf', hleaf', rfl⟩ := List.mem_map.mp hq
    exact dotted_inj (mem_leaves hwf hleaf).1 (mem_leaves hwf hleaf').1 heq
  refine ⟨⟨Dict.ofList (tree.leaves.map fun leaf => (dotted leaf.1, leaf.2))⟩, ?_, ?_, ?_⟩
  · rw [loadFromFile, hconfig]
    rfl
  · intro leaf hleaf
    have hlookup := Dict.lookup_ofList_of_mem hnodup
      (List.mem_map_of_mem (f := fun leaf => (dotted leaf.1, leaf.2)) hleaf)
    refine ⟨decide_eq_true (Dict.mem_of_lookup hlookup), ?_⟩
    rw [ConfigManager.get, hlookup]
    rfl
  · intro key hkey
    apply decide_eq_false
    rw [← Dict.lookup_ne_none, not_not]
    apply Dict.lookup_ofList_of_notMem
    intro p hp
    obtain ⟨leaf, hleaf, rfl⟩ := List.mem_map.mp hp
    exact hkey leaf hleaf

/-! ## One file -/

/-- Two models and a value after them. -/
def smallTree : ConfigTree :=
  .sect "edge".toList
    (.list "models".toList 2 0
      [⟨("model_id".toList, "yolov5s".toList), [("npu_core".toList, "0".toList)]⟩,
        ⟨("model_id".toList, "yolov8s".toList), []⟩]
      (.scalar "fps".toList "30".toList .empty)) .empty

def smallFile : Text :=
  ("# edge\nedge:\n  models:\n    - model_id: yolov5s\n\n      npu_core: 0\n" ++
    "    - model_id: yolov8s\n  # frame rate\n  fps: 30\n").toList

theorem loadFromFile_smallFile :
    ∃ cfg, loadFromFile {} (some smallFile) = (cfg, true) ∧
      (∀ leaf ∈ smallTree.leaves,
        cfg.has (dotted leaf.1) = true ∧ cfg.get (dotted leaf.1) = leaf.2) ∧
      ∀ key, (∀ leaf ∈ smallTree.leaves, key ≠ dotted leaf.1) → cfg.has key = false :=
  loadFromFile_printed (by decide +kernel) (Nat.zero_lt_two) (by unfold PrintedAs; decide +kernel)

end ConfigTree
