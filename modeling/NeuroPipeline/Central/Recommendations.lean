-- SUMMARY: Recommendations of a text with the stretches they are taken from, and when two of them overlap.
import Mathlib.Data.List.DropRight
import NeuroPipeline.Central.VlmConfigGuide
import NeuroPipeline.Lib.RegexCaptures

/-!
# Stretches of recommendations

Four patterns go over a text one after the other. Three of them capture the rest of
a line, behind a keyword, a number or a dash, and the fourth a sentence.
-/

inductive RecommendationSource where
  | keyword
  | numbered
  | bulleted
  | action
  deriving DecidableEq

/-- A stretch of the text, without the space around it. -/
structure Stretch where
  source : RecommendationSource
  start : Nat
  text : List Char
  deriving DecidableEq

def Stretch.stop (s : Stretch) : Nat := s.start + s.text.length

namespace VlmConfigGuide

open Regex (Way captures placed sequence oneOf lit plus word)

/-- The patterns in the order in which they are looked for. -/
def sources (py : Python) : List (RecommendationSource × Regex) :=
  [.keyword, .numbered, .bulleted, .action].zip (recommendationPatterns py ++ [actionPattern])

/-- A capture without the space around it. -/
def stretchOf (py : Python) (source : RecommendationSource) (c : Nat × List Char) : Stretch where
  source := source
  start := c.1 + (c.2.takeWhile py.isSpace).length
  text := strip py c.2

/-- All that is captured. -/
def stretches (py : Python) (text : List Char) : List Stretch :=
  (sources py).flatMap fun p => (captures p.2 text).map (stretchOf py p.1)

/-- `clean`, with the stretches. -/
def keepStretch (kept : List Stretch) (s : Stretch) : List Stretch :=
  if (∀ k ∈ kept, k.text ≠ s.text) ∧ 10 < s.text.length then kept ++ [s] else kept

/-- Where the recommendations are taken from. -/
def recommended (py : Python) (text : List Char) : List Stretch :=
  (stretches py text).foldl keepStretch []

/-- The adjustments of a text, each with the stretch that it stems from. -/
def applied (guide : VlmConfigGuide) (py : Python) (text : String) :
    List (Stretch × ConfigAdjustment) :=
  (sliceTo (recommended py text.toList) guide.maxAdjustmentsPerResult).filterMap fun s =>
    ((guide.parseRecommendation py s.text).filter fun a => guide.minConfidence ≤ a.confidence).map
      fun a => (s, a)

/-! ## Overlaps -/

def Apart (s t : Stretch) : Prop := s.stop ≤ t.start ∨ t.stop ≤ s.start

/-- No two adjustments stem from overlapping stretches. -/
def AppliesOnce (guide : VlmConfigGuide) (py : Python) (text : String) : Prop :=
  (guide.applied py text).Pairwise fun x y => Apart x.1 y.1

/-- The number of the line that a place is on. -/
def lineOf (text : List Char) (place : Nat) : Nat := (text.take place).count '\n'

/-- A sentence begins on the line of a rest or above, and no mark ends it before the rest. -/
def RunsInto (text : List Char) (sentence rest : Stretch) : Prop :=
  lineOf text sentence.start ≤ lineOf text rest.start ∧
    ∀ c ∈ (text.take rest.start).drop sentence.start, endsSentence c = false

/-- Two rests of lines meet on one line, and a sentence meets the rests that it runs into. -/
def Meets (text : List Char) (s t : Stretch) : Prop :=
  if s.source = .action then RunsInto text s t
  else if t.source = .action then RunsInto text t s
  else lineOf text s.start = lineOf text t.start

variable {guide : VlmConfigGuide} {py : Python} {text : List Char}

/-! ## The adjustments -/

theorem map_text_stretches (py : Python) (text : List Char) :
    (stretches py text).map Stretch.text =
      (((recommendationPatterns py).flatMap fun pattern => pattern.findall text) ++
        actionPattern.findall text).map (strip py) := by
  have hone : ∀ source (r : Regex), ((captures r text).map (stretchOf py source)).map Stretch.text =
      (r.findall text).map (strip py) := by
    intro source r
    rw [← Regex.captures_texts, List.map_map, List.map_map]
    rfl
  simp only [stretches, sources, recommendationPatterns, List.cons_append, List.nil_append,
    List.zip_cons_cons, List.zip_nil_right, List.flatMap_cons, List.flatMap_nil, List.map_append,
    List.append_nil, hone, List.append_assoc]

theorem map_text_foldl_keepStretch (l kept : List Stretch) :
    (l.foldl keepStretch kept).map Stretch.text =
      (l.map Stretch.text).foldl clean (kept.map Stretch.text) := by
  induction l generalizing kept with
  | nil => rfl
  | cons s l ih =>
      have hnew : s.text ∉ kept.map Stretch.text ↔ ∀ k ∈ kept, k.text ≠ s.text := by
        simp only [List.mem_map, not_exists, not_and]
      rw [List.foldl_cons, ih, List.map_cons, List.foldl_cons]
      congr 1
      simp only [keepStretch, clean, hnew]
      split
      · rw [List.map_append]
        rfl
      · rfl

/-- The stretches are those of the recommendations. -/
theorem map_text_recommended (py : Python) (text : List Char) :
    (recommended py text).map Stretch.text = extractRecommendations py text := by
  rw [recommended, map_text_foldl_keepStretch, map_text_stretches]
  rfl

theorem map_sliceTo {α β : Type} (f : α → β) (l : List α) (n : Int) :
    (sliceTo l n).map f = sliceTo (l.map f) n := by
  rw [sliceTo, sliceTo, List.length_map]
  split <;> rw [List.map_take]

/-- The adjustments are those of the result. -/
theorem map_snd_applied (guide : VlmConfigGuide) (py : Python) (text : String) :
    (guide.applied py text).map Prod.snd = (guide.parseVlmResult py text).adjustments := by
  rw [applied, parseVlmResult, ← map_text_recommended, ← map_sliceTo, List.filterMap_map,
    List.map_filterMap]
  refine List.filterMap_congr fun s _ => ?_
  simp [Option.map_map]

/-! ## What is kept -/

theorem foldl_keepStretch (l kept : List Stretch) : ∃ new, new.Sublist l ∧
    l.foldl keepStretch kept = kept ++ new ∧ ∀ s ∈ new, 10 < s.text.length := by
  induction l generalizing kept with
  | nil => exact ⟨[], .slnil, (List.append_nil _).symm, by simp⟩
  | cons s l ih =>
      obtain ⟨new, hsub, heq, hlong⟩ := ih (keepStretch kept s)
      rw [List.foldl_cons, heq, keepStretch]
      split
      · next hkeep =>
        refine ⟨s :: new, hsub.cons_cons s, by rw [List.append_assoc]; rfl, ?_⟩
        exact List.forall_mem_cons.mpr ⟨hkeep.2, hlong⟩
      · exact ⟨new, hsub.cons s, rfl, hlong⟩

theorem recommended_sublist (py : Python) (text : List Char) :
    (recommended py text).Sublist (stretches py text) ∧
      ∀ s ∈ recommended py text, 10 < s.text.length := by
  obtain ⟨new, hsub, heq, hlong⟩ := foldl_keepStretch (stretches py text) []
  rw [recommended, heq]
  exact ⟨hsub, hlong⟩

theorem sliceTo_sublist {α : Type} (l : List α) (n : Int) : (sliceTo l n).Sublist l := by
  rw [sliceTo]
  split <;> exact List.take_sublist _ _

/-- An adjustment's stretch is one of those that are kept, in their order. -/
theorem map_fst_applied (guide : VlmConfigGuide) (py : Python) (text : String) :
    ((guide.applied py text).map Prod.fst).Sublist (recommended py text.toList) := by
  refine List.Sublist.trans ?_ (sliceTo_sublist _ guide.maxAdjustmentsPerResult)
  rw [applied]
  induction sliceTo (recommended py text.toList) guide.maxAdjustmentsPerResult with
  | nil => exact .slnil
  | cons s l ih =>
      rw [List.filterMap_cons]
      cases (guide.parseRecommendation py s.text).filter
          fun a => guide.minConfidence ≤ a.confidence with
      | none => exact ih.cons s
      | some a => exact ih.cons_cons s

/-! ## One pattern -/

theorem strip_eq (py : Python) (s : List Char) :
    strip py s = (s.dropWhile py.isSpace).rdropWhile py.isSpace := rfl

theorem exists_strip (py : Python) (s : List Char) : ∃ after,
    s = s.takeWhile py.isSpace ++ (strip py s ++ after) ∧ ∀ c ∈ after, py.isSpace c = true := by
  refine ⟨(s.dropWhile py.isSpace).rtakeWhile py.isSpace, ?_, fun c => List.mem_rtakeWhile_imp⟩
  rw [strip_eq, List.rdropWhile_append_rtakeWhile, List.takeWhile_append_dropWhile]

theorem isSpace_head_strip {py : Python} {s : List Char} {c : Char}
    (h : c ∈ (strip py s).head?) : py.isSpace c = false := by
  obtain ⟨after, hafter⟩ := List.rdropWhile_prefix py.isSpace (s.dropWhile py.isSpace)
  have hhead := List.head?_dropWhile_not py.isSpace s
  rw [← hafter, ← strip_eq, List.head?_append, Option.mem_def.mp h] at hhead
  simpa using hhead

theorem stretchOf_bounds (py : Python) (source : RecommendationSource) (c : Nat × List Char) :
    c.1 ≤ (stretchOf py source c).start ∧ (stretchOf py source c).stop ≤ c.1 + c.2.length := by
  obtain ⟨after, hsplit, -⟩ := exists_strip py c.2
  have hlength := congrArg List.length hsplit
  simp only [List.length_append] at hlength
  constructor
  · exact Nat.le_add_right _ _
  · simp only [stretchOf, Stretch.stop]
    omega

theorem drop_stretchOf {py : Python} {source : RecommendationSource}
    {before g spaces after : List Char}
    (hg : g = g.takeWhile py.isSpace ++ (strip py g ++ spaces)) :
    (before ++ (g ++ after)).drop (stretchOf py source (before.length, g)).start =
      (stretchOf py source (before.length, g)).text ++ (spaces ++ after) := by
  have htext : before ++ (g ++ after) =
      (before ++ g.takeWhile py.isSpace) ++ (strip py g ++ (spaces ++ after)) := by
    conv_lhs => rw [hg]
    simp only [List.append_assoc]
  have hstart : (stretchOf py source (before.length, g)).start =
      (before ++ g.takeWhile py.isSpace).length := by simp [stretchOf]
  rw [htext, hstart, List.drop_left]
  rfl

/-- What one pattern finds lies apart. -/
theorem apart_of_source_eq (py : Python) (text : List Char) :
    (stretches py text).Pairwise fun s t => s.source = t.source → Apart s t := by
  refine List.pairwise_flatMap.mpr ⟨fun p _ => ?_, ?_⟩
  · refine List.pairwise_map.mpr ((Regex.captures_disjoint p.2 text).imp fun {c d} h _ => .inl ?_)
    exact (stretchOf_bounds py p.1 c).2.trans (h.trans (stretchOf_bounds py p.1 d).1)
  · have hsources : ((sources py).map Prod.fst).Nodup := by
      rw [show (sources py).map Prod.fst = [.keyword, .numbered, .bulleted, .action] from rfl]
      decide
    refine (List.pairwise_map.mp hsources).imp fun {p q} hne s hs t ht h => absurd ?_ hne
    obtain ⟨c, -, rfl⟩ := List.mem_map.mp hs
    obtain ⟨d, -, rfl⟩ := List.mem_map.mp ht
    exact h

/-! ## Rests of lines -/

/-- A capture with nothing behind it on its line. -/
def IsRest (py : Python) (text : List Char) (s : Stretch) : Prop :=
  ∃ spaces after, text.drop s.start = s.text ++ (spaces ++ after) ∧
    (∀ c ∈ spaces, py.isSpace c = true) ∧ '\n' ∉ s.text ∧ '\n' ∉ spaces ∧
    (after = [] ∨ ∃ next, after = '\n' :: next)

/-- The group of a way runs to the end of its line. -/
def EndsLine (w : Way) (s : List Char) : Prop :=
  ∃ before g after, s = before ++ (g ++ after) ∧ w.group = some (before.length, g) ∧
    '\n' ∉ g ∧ (after = [] ∨ ∃ next, after = '\n' :: next)

theorem EndsLine.seq {r t : Regex} (ht : ∀ {s n}, n ∈ placed t s → EndsLine n s)
    {s : List Char} {w : Way} (h : w ∈ placed (.seq r t) s) : EndsLine w s := by
  obtain ⟨m, hm, n, hn, rfl⟩ := Regex.mem_placed_seq.mp h
  obtain ⟨before, g, after, hs, hgroup, hline, hafter⟩ := ht hn
  refine ⟨m.text ++ before, g, after, ?_, ?_, hline, hafter⟩
  · rw [← (Way.Placed.of_mem hm).split, hs, List.append_assoc]
  · rw [List.length_append]
    simp [hgroup, Regex.shift]

/-- A line ends before its newline or at the end of the text. -/
theorem of_mem_lineEnd {s : List Char} {w : Way}
    (h : w ∈ placed (sequence [oneOf [lit "\n", .endOfLine]]) s) :
    w.group = none ∧ (s = [] ∨ ∃ next, s = '\n' :: next) := by
  cases s with
  | nil =>
      rw [show placed (sequence [oneOf [lit "\n", .endOfLine]]) [] = [⟨[], [], none⟩] from rfl] at h
      obtain rfl := List.mem_singleton.mp h
      exact ⟨rfl, .inl rfl⟩
  | cons c s =>
      by_cases hc : c = '\n'
      · subst hc
        rw [show placed (sequence [oneOf [lit "\n", .endOfLine]]) ('\n' :: s) =
          [⟨['\n'], s, none⟩, ⟨[], '\n' :: s, none⟩] from rfl] at h
        refine ⟨?_, .inr ⟨s, rfl⟩⟩
        rcases List.mem_cons.mp h with rfl | h
        · rfl
        · obtain rfl := List.mem_singleton.mp h
          rfl
      · obtain ⟨m, hm, -⟩ := Regex.mem_placed_seq.mp h
        simp [Regex.oneOf, lit, word, Regex.sequence, placed, Regex.ways, hc, Ne.symm hc] at hm

theorem EndsLine.of_mem {py : Python} (l : List Regex) {s : List Char} {w : Way}
    (h : w ∈ placed (sequence (l ++ restOfLine py)) s) : EndsLine w s := by
  induction l generalizing s w with
  | cons r l ih => exact EndsLine.seq (fun hn => ih hn) h
  | nil =>
      refine EndsLine.seq (fun {s n} hn => ?_) h
      obtain ⟨m, hm, last, hlast, rfl⟩ := Regex.mem_placed_seq.mp hn
      obtain ⟨hnone, hend⟩ := of_mem_lineEnd hlast
      obtain ⟨m, hg, rfl⟩ := List.mem_map.mp hm
      refine ⟨[], m.text, m.rest, (Way.Placed.of_mem hg).split.symm, ?_, ?_, hend⟩
      · simp [hnone, Regex.shift]
      · have honly : Regex.Only (· ≠ '\n') (plus (· != '\n') false) :=
          ⟨fun c hc => by simpa using hc, fun c hc => by simpa using hc⟩
        exact fun hmem => honly.of_mem_text hg hmem rfl

theorem IsRest.of_mem {py : Python} {source : RecommendationSource} {l : List Regex}
    {text : List Char} {s : Stretch}
    (h : s ∈ (captures (sequence (l ++ restOfLine py)) text).map (stretchOf py source)) :
    IsRest py text s := by
  obtain ⟨c, hc, rfl⟩ := List.mem_map.mp h
  obtain ⟨start, t, w, rfl, -, hw, rfl⟩ := Regex.exists_way_of_mem hc
  obtain ⟨before, g, after, rfl, hgroup, hline, hafter⟩ := EndsLine.of_mem l hw
  obtain ⟨spaces, hg, hspaces⟩ := exists_strip py g
  have hnewline : '\n' ∉ strip py g ∧ '\n' ∉ spaces := by
    rw [hg] at hline
    simp only [List.mem_append, not_or] at hline
    exact hline.2
  have hcapture : Regex.capture (0 + start.length) w = ((start ++ before).length, g) := by
    rw [Regex.capture, hgroup, Nat.zero_add, List.length_append]
  rw [hcapture]
  refine ⟨spaces, after, ?_, hspaces, hnewline.1, hnewline.2, hafter⟩
  rw [← List.append_assoc]
  exact drop_stretchOf hg

/-! ## Sentences -/

/-- What the interpreter's table of spaces leaves out. -/
structure PlainSpaces (py : Python) : Prop where
  letter : ∀ c, 'A' ≤ c → c ≤ 'Z' → py.isSpace c = false
  mark : ∀ c, endsSentence c = true → py.isSpace c = false

/-- A capital letter, and what follows it up to the first mark that ends a sentence. -/
def IsSentence (text : List Char) (s : Stretch) : Prop :=
  ∃ first body last after, text.drop s.start = s.text ++ after ∧
    s.text = (first :: body) ++ [last] ∧ ('A' ≤ first ∧ first ≤ 'Z') ∧
    (∀ c ∈ first :: body, endsSentence c = false) ∧ endsSentence last = true

theorem endsSentence_letter {c : Char} (h : 'A' ≤ c ∧ c ≤ 'Z') : endsSentence c = false := by
  have hne : ∀ mark : Char, mark < 'A' → c ≠ mark := by
    rintro mark hmark rfl
    exact absurd h.1 (Char.not_le.mpr hmark)
  simp [endsSentence, hne '.' (by decide), hne '!' (by decide), hne '?' (by decide)]

theorem strip_eq_self {py : Python} {first last : Char} {body : List Char}
    (hfirst : py.isSpace first = false) (hlast : py.isSpace last = false) :
    strip py ((first :: body) ++ [last]) = (first :: body) ++ [last] := by
  rw [strip_eq, List.cons_append, List.dropWhile_cons_of_neg (by simp [hfirst]),
    ← List.cons_append, List.rdropWhile_concat_neg _ _ _ (by simp [hlast])]

/-- A verb stands between the letter and the mark. -/
theorem exists_of_mem_actionPattern {s : List Char} {w : Way} (h : w ∈ placed actionPattern s) :
    ∃ first body last, w.group = some (0, (first :: body) ++ [last]) ∧
      w.text = (first :: body) ++ [last] ∧ ('A' ≤ first ∧ first ≤ 'Z') ∧
      (∀ c ∈ first :: body, endsSentence c = false) ∧ endsSentence last = true := by
  obtain ⟨m, hm, rfl⟩ := List.mem_map.mp h
  obtain ⟨front, hfront, mark, hmark, htext, -⟩ :=
    Regex.exists_parts_of_mem [_, _, _, _] [_] hm
  obtain ⟨capital, hcapital, others, -, rfl⟩ := Regex.mem_placed_seq.mp hfront
  obtain ⟨first, hfirst, hletter⟩ := Regex.exists_of_mem_char hcapital
  obtain ⟨final, hfinal, nothing, hnothing, rfl⟩ := Regex.mem_placed_seq.mp hmark
  obtain ⟨last, hlast, hends⟩ := Regex.exists_of_mem_char hfinal
  obtain rfl := List.mem_singleton.mp hnothing
  have hbody : capital.text ++ others.text = first :: others.text := by rw [hfirst]; rfl
  have hmark : final.text ++ [] = [last] := by rw [hlast]; rfl
  have hall : m.text = (first :: others.text) ++ [last] := by
    rw [htext, hbody]
    exact congrArg _ hmark
  refine ⟨first, others.text, last, ?_, hall, by simpa using hletter, ?_, hends⟩
  · exact congrArg (fun text => some (0, text)) hall
  · intro c hc
    refine Regex.Only.of_mem_text (q := fun c => endsSentence c = false) ?_ hfront (hbody ▸ hc)
    refine Regex.Only.sequence (List.forall_mem_cons.mpr ⟨fun c hc => ?_, ?_⟩)
    · have hcapital : 'A' ≤ c ∧ c ≤ 'Z' := by simpa using hc
      exact endsSentence_letter hcapital
    · have hother : ∀ c, (!endsSentence c) = true → endsSentence c = false := by simp
      refine List.forall_mem_cons.mpr ⟨hother, List.forall_mem_cons.mpr ⟨?_, ?_⟩⟩
      · refine Regex.Only.oneOf fun r hr => ?_
        obtain ⟨verb, hverb, rfl⟩ := List.mem_map.mp hr
        have hplain : ["adjust", "change", "modify", "increase", "decrease", "focus", "monitor",
            "ignore"].all (fun verb => verb.toList.all fun c => !endsSentence c) = true := by
          decide +kernel
        exact Regex.Only.lit fun c hc => hother c
          (List.all_eq_true.mp (List.all_eq_true.mp hplain verb hverb) c hc)
      · exact List.forall_mem_singleton.mpr hother

theorem IsSentence.of_mem {py : Python} (hpy : PlainSpaces py) {text : List Char} {s : Stretch}
    (h : s ∈ (captures actionPattern text).map (stretchOf py .action)) : IsSentence text s := by
  obtain ⟨c, hc, rfl⟩ := List.mem_map.mp h
  obtain ⟨start, t, w, rfl, -, hw, rfl⟩ := Regex.exists_way_of_mem hc
  obtain ⟨first, body, last, hgroup, htext, hletter, hbody, hends⟩ :=
    exists_of_mem_actionPattern hw
  have hcapture : Regex.capture (0 + start.length) w = (start.length, (first :: body) ++ [last]) := by
    rw [Regex.capture, hgroup, Nat.zero_add]
    rfl
  have hfirst := hpy.letter first hletter.1 hletter.2
  have hstrip : strip py ((first :: body) ++ [last]) = (first :: body) ++ [last] :=
    strip_eq_self hfirst (hpy.mark last hends)
  have hsplit : (first :: body) ++ [last] = ((first :: body) ++ [last]).takeWhile py.isSpace ++
      (strip py ((first :: body) ++ [last]) ++ []) := by
    rw [hstrip, List.append_nil, List.cons_append, List.takeWhile_cons_of_neg (by simp [hfirst]),
      List.nil_append]
  rw [hcapture, ← (Way.Placed.of_mem hw).split, htext]
  exact ⟨first, body, last, w.rest, drop_stretchOf hsplit, hstrip, hletter, hbody, hends⟩

/-! ## Where stretches end -/

theorem lineOf_mono (text : List Char) {m n : Nat} (h : m ≤ n) : lineOf text m ≤ lineOf text n :=
  (List.take_prefix_take_left h).sublist.count_le _

/-- A rest of a line goes on as long as its line does. -/
theorem IsRest.lt_stop_iff {py : Python} {s : Stretch} (hs : IsRest py text s) (hne : s.text ≠ [])
    {place : Nat} {c : Char} (hc : c ∈ (text.drop place).head?) (hspace : py.isSpace c = false)
    (hline : c ≠ '\n') : place < s.stop ↔ lineOf text place ≤ lineOf text s.start := by
  obtain ⟨spaces, after, htext, hspaces, hplain, hfree, hafter⟩ := hs
  have hpos : 0 < s.text.length := List.length_pos_of_ne_nil hne
  rcases Nat.le_total place s.start with hle | hle
  · refine ⟨fun _ => lineOf_mono text hle, fun _ => ?_⟩
    rw [Stretch.stop]
    omega
  obtain ⟨d, rfl⟩ := Nat.exists_eq_add_of_le hle
  have hnewlines : lineOf text (s.start + d) =
      lineOf text s.start + ((s.text ++ (spaces ++ after)).take d).count '\n' := by
    rw [lineOf, List.take_add, List.count_append, htext]
    rfl
  have hsame : lineOf text (s.start + d) ≤ lineOf text s.start ↔
      '\n' ∉ (s.text ++ (spaces ++ after)).take d := by
    rw [hnewlines, ← List.count_eq_zero]
    omega
  rw [hsame, Stretch.stop, Nat.add_lt_add_iff_left]
  rw [← List.drop_drop, htext, List.head?_drop] at hc
  constructor
  · intro hd hmem
    rw [List.take_append_of_le_length hd.le] at hmem
    exact hplain (List.mem_of_mem_take hmem)
  · intro hnone
    by_contra hd
    -- behind the stretch there are spaces, and then the end of the line
    rw [List.getElem?_append_right (not_lt.mp hd)] at hc
    rcases Nat.lt_or_ge (d - s.text.length) spaces.length with hlt | hge
    · rw [List.getElem?_append_left hlt] at hc
      exact Bool.false_ne_true (hspace.symm.trans (hspaces c (List.mem_of_getElem? hc)))
    · rw [List.getElem?_append_right hge] at hc
      obtain rfl | ⟨next, rfl⟩ := hafter
      · exact absurd hc (by simp)
      · cases hindex : d - s.text.length - spaces.length with
        | zero =>
            rw [hindex] at hc
            exact hline (Option.some.inj hc).symm
        | succ k =>
            have hfront : s.text ++ spaces ++ ['\n'] <+:
                (s.text ++ (spaces ++ '\n' :: next)).take d := by
              refine List.prefix_take_iff.mpr ⟨⟨next, by simp⟩, ?_⟩
              simp only [List.length_append, List.length_singleton]
              omega
            exact hnone (hfront.subset (by simp))

/-- A sentence goes on up to the first mark. -/
theorem IsSentence.lt_stop_iff {s : Stretch} (hs : IsSentence text s) (place : Nat) :
    place < s.stop ↔ ∀ c ∈ (text.take place).drop s.start, endsSentence c = false := by
  obtain ⟨first, body, last, after, htext, hsplit, -, hbody, hends⟩ := hs
  rw [List.drop_take, htext, hsplit, Stretch.stop, hsplit, List.length_append,
    List.length_singleton, List.append_assoc]
  constructor
  · intro hplace c hc
    rw [List.take_append_of_le_length (by omega)] at hc
    exact hbody c (List.mem_of_mem_take hc)
  · intro hnone
    by_contra hplace
    have hfront : (first :: body) ++ [last] <+:
        ((first :: body) ++ ([last] ++ after)).take (place - s.start) := by
      refine List.prefix_take_iff.mpr ⟨⟨after, by simp⟩, ?_⟩
      rw [List.length_append, List.length_singleton]
      omega
    have hlast := hnone last (hfront.subset (by simp))
    exact Bool.false_ne_true (hlast.symm.trans hends)

/-! ## Overlaps -/

/-- What stands at the beginning of a stretch is no space and no newline. -/
def Begins (py : Python) (text : List Char) (s : Stretch) : Prop :=
  ∃ c ∈ (text.drop s.start).head?, py.isSpace c = false ∧ c ≠ '\n'

theorem mem_sources {py : Python} {p : RecommendationSource × Regex} (h : p ∈ sources py) :
    (p.1 ≠ .action ∧ ∃ l, p.2 = sequence (l ++ restOfLine py)) ∨ p = (.action, actionPattern) := by
  simp only [sources, recommendationPatterns, List.cons_append, List.nil_append,
    List.zip_cons_cons, List.zip_nil_right, List.mem_cons, List.not_mem_nil, or_false] at h
  rcases h with rfl | rfl | rfl | rfl
  · exact .inl ⟨nofun, [_, _, _], rfl⟩
  · exact .inl ⟨nofun, [_, _], rfl⟩
  · exact .inl ⟨nofun, [_], rfl⟩
  · exact .inr rfl

theorem rest_or_sentence {py : Python} (hpy : PlainSpaces py) {s : Stretch}
    (h : s ∈ stretches py text) :
    (s.source ≠ .action ∧ IsRest py text s) ∨ (s.source = .action ∧ IsSentence text s) := by
  obtain ⟨p, hp, hs⟩ := List.mem_flatMap.mp h
  have hsource : s.source = p.1 := by
    obtain ⟨c, -, rfl⟩ := List.mem_map.mp hs
    rfl
  rcases mem_sources hp with ⟨hne, l, hpattern⟩ | rfl
  · rw [hpattern] at hs
    exact .inl ⟨hsource ▸ hne, IsRest.of_mem hs⟩
  · exact .inr ⟨hsource, IsSentence.of_mem hpy hs⟩

/-- A stretch begins with a character of its own. -/
theorem begins_of_mem {py : Python} (hpy : PlainSpaces py) {s : Stretch}
    (h : s ∈ stretches py text) (hne : s.text ≠ []) : Begins py text s := by
  rcases rest_or_sentence hpy h with ⟨-, spaces, after, htext, -, hplain, -⟩ |
      ⟨-, first, body, last, after, htext, hsplit, hletter, -⟩
  · obtain ⟨p, -, hs⟩ := List.mem_flatMap.mp h
    obtain ⟨c, -, rfl⟩ := List.mem_map.mp hs
    have hfirst := List.head?_eq_some_head hne
    refine ⟨_, ?_, isSpace_head_strip hfirst, ?_⟩
    · rw [htext, List.head?_append, hfirst]
      rfl
    · intro hnewline
      exact hplain (hnewline ▸ List.head_mem hne)
  · refine ⟨first, ?_, hpy.letter first hletter.1 hletter.2, ?_⟩
    · rw [htext, hsplit]
      rfl
    · rintro rfl
      exact absurd hletter.1 (by decide)

theorem not_apart_iff {s t : Stretch} : ¬ Apart s t ↔ s.start < t.stop ∧ t.start < s.stop := by
  rw [Apart, not_or, not_le, not_le, and_comm]

/-- A sentence and a rest overlap where the sentence runs into the rest. -/
theorem runsInto_iff {py : Python} {s t : Stretch} (hs : IsSentence text s)
    (hbegins : Begins py text s) (ht : IsRest py text t) (hne : t.text ≠ []) :
    RunsInto text s t ↔ s.start < t.stop ∧ t.start < s.stop := by
  obtain ⟨c, hc, hspace, hline⟩ := hbegins
  rw [RunsInto, ← ht.lt_stop_iff hne hc hspace hline, ← hs.lt_stop_iff t.start]

theorem line_eq_iff {py : Python} {s t : Stretch} (hs : IsRest py text s) (hsne : s.text ≠ [])
    (hsbegins : Begins py text s) (ht : IsRest py text t) (htne : t.text ≠ [])
    (htbegins : Begins py text t) :
    lineOf text s.start = lineOf text t.start ↔ s.start < t.stop ∧ t.start < s.stop := by
  obtain ⟨c, hc, hcspace, hcline⟩ := hsbegins
  obtain ⟨d, hd, hdspace, hdline⟩ := htbegins
  rw [ht.lt_stop_iff htne hc hcspace hcline, hs.lt_stop_iff hsne hd hdspace hdline]
  exact le_antisymm_iff

/-- What different patterns find is apart unless it meets. -/
theorem meets_iff {py : Python} (hpy : PlainSpaces py) {s t : Stretch}
    (hs : s ∈ stretches py text) (ht : t ∈ stretches py text) (hsne : s.text ≠ [])
    (htne : t.text ≠ []) (hsource : s.source ≠ t.source) : Meets text s t ↔ ¬ Apart s t := by
  have hsbegins := begins_of_mem hpy hs hsne
  have htbegins := begins_of_mem hpy ht htne
  rw [not_apart_iff, Meets]
  rcases rest_or_sentence hpy hs with ⟨hsaction, hsrest⟩ | ⟨hsaction, hssentence⟩
  · rw [if_neg hsaction]
    rcases rest_or_sentence hpy ht with ⟨htaction, htrest⟩ | ⟨htaction, htsentence⟩
    · rw [if_neg htaction]
      exact line_eq_iff hsrest hsne hsbegins htrest htne htbegins
    · rw [if_pos htaction, runsInto_iff htsentence htbegins hsrest hsne, and_comm]
  · rw [if_pos hsaction]
    rcases rest_or_sentence hpy ht with ⟨-, htrest⟩ | ⟨htaction, -⟩
    · exact runsInto_iff hssentence hsbegins htrest htne
    · exact absurd (hsaction.trans htaction.symm) hsource

/-- Each recommendation is applied once exactly if the rests of lines that are applied stand
on different lines and no sentence that is applied runs into one of them. -/
theorem appliesOnce_iff (hpy : PlainSpaces py) (text : String) : guide.AppliesOnce py text ↔
    (guide.applied py text).Pairwise fun x y =>
      x.1.source ≠ y.1.source → ¬ Meets text.toList x.1 y.1 := by
  obtain ⟨hsub, hlong⟩ := recommended_sublist py text.toList
  have happlied := (map_fst_applied guide py text).trans hsub
  have hmem : ∀ {x}, x ∈ guide.applied py text →
      x.1 ∈ stretches py text.toList ∧ x.1.text ≠ [] := by
    intro x hx
    have hx : x.1 ∈ (guide.applied py text).map Prod.fst := List.mem_map_of_mem hx
    have hlength := hlong x.1 ((map_fst_applied guide py text).subset hx)
    refine ⟨happlied.subset hx, ?_⟩
    intro hempty
    rw [hempty] at hlength
    cases hlength
  have hone := List.pairwise_map.mp ((apart_of_source_eq py text.toList).sublist happlied)
  constructor
  · refine fun h => h.imp_of_mem fun {x y} hx hy hapart hsource hmeets => ?_
    exact (meets_iff hpy (hmem hx).1 (hmem hy).1 (hmem hx).2 (hmem hy).2 hsource).mp hmeets hapart
  · refine fun h => (hone.and h).imp_of_mem fun {x y} hx hy ⟨hsame, hother⟩ => ?_
    by_cases hsource : x.1.source = y.1.source
    · exact hsame hsource
    · by_contra hapart
      exact hother hsource ((meets_iff hpy (hmem hx).1 (hmem hy).1 (hmem hx).2 (hmem hy).2
        hsource).mpr hapart)

theorem plainSpaces_asciiPython : PlainSpaces asciiPython where
  letter c hA hZ := by
    have hle : 65 ≤ c.val := hA
    simp only [asciiPython]
    grind
  mark c hc := by
    simp only [endsSentence, Bool.or_eq_true, beq_iff_eq] at hc
    rcases hc with (rfl | rfl) | rfl <;> rfl

def twoLines : String := "Suggest: lower the threshold.\n- focus on the left area"

theorem appliesOnce_iff_twoLines : AppliesOnce {} asciiPython twoLines := by
  refine (appliesOnce_iff plainSpaces_asciiPython twoLines).mpr ?_
  have hstretches : (applied {} asciiPython twoLines).map Prod.fst =
      [⟨.keyword, 9, "lower the threshold.".toList⟩,
        ⟨.bulleted, 32, "focus on the left area".toList⟩] := by decide +kernel
  have hpairs : ((applied {} asciiPython twoLines).map Prod.fst).Pairwise fun s t =>
      s.source ≠ t.source → ¬ Meets twoLines.toList s t := by
    rw [hstretches]
    refine List.pairwise_pair.mpr fun _ => ?_
    rw [Meets, if_neg nofun, if_neg nofun]
    decide +kernel
  exact List.pairwise_map.mp hpairs

/-- One sentence of a numbered list is applied as what it suggests and as the line it is. -/
theorem not_appliesOnce_numbered :
    ¬ AppliesOnce {} asciiPython "1. You should increase sensitivity now." := by
  have hstretches : (applied {} asciiPython
      "1. You should increase sensitivity now.").map Prod.fst =
      [⟨.keyword, 14, "increase sensitivity now.".toList⟩,
        ⟨.numbered, 3, "You should increase sensitivity now.".toList⟩] := by decide +kernel
  intro h
  have hpairs : ((applied {} asciiPython "1. You should increase sensitivity now.").map
      Prod.fst).Pairwise Apart := List.pairwise_map.mpr h
  rw [hstretches] at hpairs
  have hapart := List.rel_of_pairwise_cons hpairs List.mem_cons_self
  rw [Apart] at hapart
  exact absurd hapart (by decide +kernel)

end VlmConfigGuide
