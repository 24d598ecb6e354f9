import NexusMainframe.Lib.Rewriting
import NexusMainframe.Lib.Url
import NexusMainframe.Mcp.ToolCalls
import Mathlib.Data.List.Infix

/-!
# The URLs of tool calls

The arguments of a call are put into the path of the endpoint, each in place of the first text
that is its placeholder, and into the query, all of them as they are. The URL is decoded to what
it was made from when every placeholder is replaced where it stands for itself, and no argument
has a character that the decoder takes for something else. Where that fails the URL is decoded to
something else, except for placeholders that are written with escapes.
-/

namespace NexusMainframe

namespace McpServer

/-! ### What the URL is made from -/

/-- The names of the parameters in the path. -/
def pathNames (ep : Endpoint) : List Bytes :=
  (ep.params.filter (·.location = Bytes.ofAscii "path")).map EndpointParam.name

/-- The names of the parameters in the query, with the arguments for them. -/
def queryPairs (ep : Endpoint) (args : Json) : List (Bytes × Bytes) :=
  (ep.params.filter (·.location = Bytes.ofAscii "query")).map fun p =>
    (p.name, stringArgument args p.name)

/-- The parameters in the path are its placeholders, and they and those in the query are given
strings. -/
structure Describes (ep : Endpoint) (args : Json) : Prop where
  nodup : (pathNames ep).Nodup
  placeholders : ∀ name, name ∈ pathNames ep ↔
    ∃ segment ∈ segments ep.path, placeholder? segment = some name
  given : ∀ p ∈ ep.params,
    p.location = Bytes.ofAscii "path" ∨ p.location = Bytes.ofAscii "query" →
    ∃ s, args.member p.name = some (.string s)

/-- The URL is decoded to the segments of the path with the arguments in place of the
placeholders, and to the pairs of the query. -/
def DecodesBack (env : Env) (ep : Endpoint) (args : Json) : Prop :=
  ∃ url, buildUrl env ep args = some url ∧
    Url.decode url = ((segments ep.path).map (expandSegment args), queryPairs ep args)

/-- A segment, with its argument in place of a placeholder with one of some names. -/
def expandWith (args : Json) (names : List Bytes) (segment : Bytes) : Bytes :=
  match placeholder? segment with
  | none => segment
  | some name => if name ∈ names then stringArgument args name else segment

/-- Nothing is taken for something else. Every argument can be serialised; unless a placeholder
is its own argument, it is a segment of the path that is not repeated, and no segment in front of
it has it as a part when the placeholders before it have been replaced; the segments of the path
with the arguments have no slash, no question mark and no escape; and the pairs of the query are
plain. -/
structure Unambiguous (env : Env) (ep : Endpoint) (args : Json) : Prop where
  serialised : ∀ p ∈ ep.params, ∀ v, args.member p.name = some v → (argument env v).isSome
  replaced : ∀ before name after, pathNames ep = before ++ name :: after →
    stringArgument args name ≠ 0x3A :: name →
    ∃ front back, segments ep.path = front ++ (0x3A :: name) :: back ∧
      (0x3A :: name) ∉ back ∧
      ∀ segment ∈ front, ¬ (0x3A :: name) <:+: expandWith args before segment
  plainPath : ∀ segment ∈ segments ep.path, 0x2F ∉ expandSegment args segment ∧
    0x3F ∉ expandSegment args segment ∧ ¬ Url.HasEscape (expandSegment args segment)
  plainQuery : ∀ pair ∈ queryPairs ep args, Url.PlainPair pair

/-- A placeholder with escapes whose argument is what it is decoded to. -/
def Escaped (ep : Endpoint) (args : Json) : Prop :=
  ∃ name ∈ pathNames ep, Url.percentDecode (0x3A :: name) = stringArgument args name ∧
    Url.HasEscape (0x3A :: name)

/-- The path with the placeholders of some names replaced one after the other. -/
def replaceAll (args : Json) (names : List Bytes) (url : Bytes) : Bytes :=
  names.foldl (fun url name => replaceFirst (0x3A :: name) (stringArgument args name) url) url

theorem replaceAll_cons (args : Json) (name : Bytes) (names : List Bytes) (url : Bytes) :
  replaceAll args (name :: names) url
    = replaceAll args names (replaceFirst (0x3A :: name) (stringArgument args name) url)
  := rfl

theorem replaceAll_concat (args : Json) (names : List Bytes) (name url : Bytes) :
  replaceAll args (names ++ [name]) url
    = replaceFirst (0x3A :: name) (stringArgument args name) (replaceAll args names url)
  := List.foldl_concat ..

/-! ### Replacing a text -/

section ReplaceFirst

variable {part val : Bytes}

theorem replaceFirst_of_absent {s : Bytes} (h : ¬ part <:+: s) :
  replaceFirst part val s = s
  := by
  induction s with
  | nil => rfl
  | cons b s ih =>
      rw [List.infix_cons_iff, not_or] at h
      rw [replaceFirst, if_neg h.1, ih h.2]

/-- A text that is its own replacement changes nothing. -/
theorem replaceFirst_same (part s : Bytes) :
  replaceFirst part part s = s
  := by
  induction s with
  | nil => rfl
  | cons b s ih =>
      rw [replaceFirst]
      split_ifs with hprefix
      · obtain ⟨rest, hrest⟩ := hprefix
        rw [← hrest, List.drop_left]
      · rw [ih]

theorem replaceFirst_self (hne : part ≠ []) :
  replaceFirst part val part = val
  := by
  cases part with
  | nil => cases hne rfl
  | cons b part => simp [replaceFirst]

/-- A text without a separator is replaced on one side of it. -/
theorem replaceFirst_append_cons
    {c : UInt8} (hne : part ≠ []) (hc : c ∉ part) (a b : Bytes) :
  replaceFirst part val (a ++ c :: b)
    = if part <:+: a then replaceFirst part val a ++ c :: b
      else a ++ c :: replaceFirst part val b
  := by
  induction a with
  | nil =>
      have hprefix : ¬ part <+: c :: b := by
        intro h
        cases part with
        | nil => cases hne rfl
        | cons d part =>
            obtain ⟨rfl, -⟩ := List.cons_prefix_cons.mp h
            apply hc List.mem_cons_self
      have hinfix : ¬ part <:+: [] := by
        simp [hne]
      rw [List.nil_append, if_neg hinfix, replaceFirst, if_neg hprefix, List.nil_append]
  | cons d a ih =>
      have hiff := Bytes.prefix_append_cons_iff hc (d :: a) b
      rw [List.cons_append] at hiff
      rw [List.cons_append, replaceFirst]
      by_cases hprefix : part <+: d :: a
      · rw [if_pos (hiff.mpr hprefix), if_pos hprefix.isInfix, replaceFirst, if_pos hprefix,
          ← List.cons_append, List.drop_append_of_le_length hprefix.length_le, List.append_assoc]
      · rw [if_neg (mt hiff.mp hprefix), ih, replaceFirst, if_neg hprefix]
        simp only [List.infix_cons_iff, hprefix, false_or]
        split_ifs <;> rfl

end ReplaceFirst

/-! ### Replacing a placeholder in the segments -/

/-- A placeholder as a rule for segments: its first occurrence is replaced, if there is one. -/
def placeholderRule (args : Json) (name segment : Bytes) : Option Bytes :=
  if (0x3A :: name) <:+: segment then
    some (replaceFirst (0x3A :: name) (stringArgument args name) segment)
  else none

theorem placeholderRule_eq_some {args : Json} {name segment : Bytes}
    (h : (0x3A :: name) <:+: segment) :
  placeholderRule args name segment
    = some (replaceFirst (0x3A :: name) (stringArgument args name) segment)
  := if_pos h

theorem placeholderRule_eq_none_iff {args : Json} {name segment : Bytes} :
  placeholderRule args name segment = none ↔ ¬ (0x3A :: name) <:+: segment
  := by
  rw [placeholderRule]
  split_ifs with h <;> simp [h]

/-- A placeholder without slashes is replaced in the first segment that has it. -/
theorem replaceFirst_intercalate
    (args : Json) {name : Bytes} (h : 0x2F ∉ name) (parts : List Bytes) :
  replaceFirst (0x3A :: name) (stringArgument args name) ([0x2F].intercalate parts)
    = [0x2F].intercalate (parts.replaceF (placeholderRule args name))
  := by
  have hslash : (0x2F : UInt8) ∉ (0x3A : UInt8) :: name := by
    simp [h]
  induction parts with
  | nil => rfl
  | cons s parts ih =>
      have hnext (t : Bytes) (rest : List Bytes) (hrest : rest ≠ []) :
          [0x2F].intercalate (t :: rest) = t ++ 0x2F :: [0x2F].intercalate rest := by
        rw [List.intercalate_cons_of_ne_nil hrest, List.append_assoc, List.singleton_append]
      have hlen := List.length_replaceF (f := placeholderRule args name) (l := parts)
      by_cases hinfix : (0x3A :: name) <:+: s
      · rw [List.replaceF_cons_of_some _ (placeholderRule_eq_some hinfix)]
        by_cases hnil : parts = []
        · simp [hnil]
        · rw [hnext _ _ hnil, hnext _ _ hnil, replaceFirst_append_cons (by simp) hslash,
            if_pos hinfix]
      · rw [List.replaceF_cons_of_none _ (placeholderRule_eq_none_iff.mpr hinfix)]
        by_cases hnil : parts = []
        · simp [hnil, replaceFirst_of_absent hinfix]
        · have hne : parts.replaceF (placeholderRule args name) ≠ [] := by
            rw [← List.length_pos_iff, hlen]
            apply List.length_pos_iff.mpr hnil
          rw [hnext _ _ hnil, hnext _ _ hne, replaceFirst_append_cons (by simp) hslash,
            if_neg hinfix, ih]

/-- A step does not take segments away, and where it adds none it changes one of them. -/
theorem segments_replaceFirst
    (args : Json) {name : Bytes} (h : 0x2F ∉ name) (url : Bytes) :
  (segments url).length
      ≤ (segments (replaceFirst (0x3A :: name) (stringArgument args name) url)).length ∧
    ((segments (replaceFirst (0x3A :: name) (stringArgument args name) url)).length
        = (segments url).length →
      segments (replaceFirst (0x3A :: name) (stringArgument args name) url)
        = (segments url).replaceF (placeholderRule args name))
  := by
  have hnew := replaceFirst_intercalate args h (segments url)
  rw [segments, List.intercalate_splitOn] at hnew
  rw [hnew, ← segments, ← List.length_replaceF (f := placeholderRule args name) (l := segments url)]
  generalize hparts : (segments url).replaceF (placeholderRule args name) = parts
  have hne : parts ≠ [] := by
    have hlen := List.length_replaceF (f := placeholderRule args name) (l := segments url)
    have hpos := List.length_pos_iff.mpr (List.splitOn_ne_nil 0x2F url)
    rw [hparts] at hlen
    rw [← List.length_pos_iff, hlen]
    apply hpos
  rw [segments, Url.splitOn_intercalate 0x2F hne]
  use Url.length_le_flatMap_splitOn 0x2F parts
  intro hlen
  apply Url.flatMap_splitOn_of_notMem
  apply (Url.flatMap_splitOn_length_eq_iff 0x2F parts).mp hlen

/-- Where the segments have not become more, the placeholders have been replaced in them. -/
theorem segments_replaceAll
    (args : Json) {names : List Bytes} (h : ∀ name ∈ names, 0x2F ∉ name) (url : Bytes) :
  (segments url).length ≤ (segments (replaceAll args names url)).length ∧
    ((segments (replaceAll args names url)).length = (segments url).length →
      segments (replaceAll args names url)
        = Rewriting.rewrites (placeholderRule args) names (segments url))
  := by
  induction names generalizing url with
  | nil =>
      use le_refl _
      intro _
      rfl
  | cons name names ih =>
      obtain ⟨hname, hnames⟩ := List.forall_mem_cons.mp h
      obtain ⟨hstep, hsame⟩ := segments_replaceFirst args hname url
      obtain ⟨hrest, hrewrites⟩ :=
        ih hnames (replaceFirst (0x3A :: name) (stringArgument args name) url)
      rw [replaceAll_cons]
      use hstep.trans hrest
      intro hlen
      rw [Rewriting.rewrites_cons, ← hsame (by omega), hrewrites (by omega)]

/-! ### The path with some placeholders replaced -/

theorem placeholder?_eq_some_iff {segment name : Bytes} :
  placeholder? segment = some name ↔ segment = 0x3A :: name ∧ name ≠ []
  := by
  unfold placeholder?
  split
  next rest =>
    by_cases hnil : rest = []
    · rw [if_pos hnil]
      simp only [reduceCtorEq, List.cons.injEq, true_and, false_iff]
      rintro ⟨rfl, hne⟩
      apply hne hnil
    · rw [if_neg hnil, Option.some.injEq, List.cons.injEq]
      constructor
      · rintro rfl
        use ⟨rfl, rfl⟩
      · rintro ⟨⟨-, rfl⟩, -⟩
        rfl
  next hne =>
    simp only [reduceCtorEq, false_iff]
    rintro ⟨rfl, -⟩
    apply hne name rfl

theorem expandWith_placeholder
    (args : Json) (names : List Bytes) {name : Bytes} (h : name ≠ []) :
  expandWith args names (0x3A :: name)
    = if name ∈ names then stringArgument args name else 0x3A :: name
  := by
  simp only [expandWith, placeholder?_eq_some_iff.mpr ⟨rfl, h⟩]

theorem expandSegment_placeholder (args : Json) {name : Bytes} (h : name ≠ []) :
  expandSegment args (0x3A :: name) = stringArgument args name
  := by
  simp only [expandSegment, placeholder?_eq_some_iff.mpr ⟨rfl, h⟩]

theorem expandWith_nil (args : Json) (segment : Bytes) :
  expandWith args [] segment = segment
  := by
  unfold expandWith
  cases placeholder? segment <;> simp

/-- A name more makes a difference to its own placeholder only. -/
theorem expandWith_concat_of_ne
    (args : Json) (names : List Bytes) {name segment : Bytes} (h : segment ≠ 0x3A :: name) :
  expandWith args (names ++ [name]) segment = expandWith args names segment
  := by
  unfold expandWith
  cases hplaceholder : placeholder? segment with
  | none => rfl
  | some name' =>
      have hne : name' ≠ name := by
        rintro rfl
        apply h (placeholder?_eq_some_iff.mp hplaceholder).1
      simp [hne]

section Describes

variable {ep : Endpoint} {args : Json} (h : Describes ep args)

include h

theorem Describes.of_mem {name : Bytes} (hname : name ∈ pathNames ep) :
  name ≠ [] ∧ 0x3A :: name ∈ segments ep.path ∧ 0x2F ∉ name
  := by
  obtain ⟨segment, hsegment, hplaceholder⟩ := (h.placeholders name).mp hname
  obtain ⟨rfl, hne⟩ := placeholder?_eq_some_iff.mp hplaceholder
  use hne, hsegment
  intro hslash
  apply slash_not_mem_segment hsegment (List.mem_cons_of_mem _ hslash)

theorem Describes.expandWith_all {segment : Bytes} (hsegment : segment ∈ segments ep.path) :
  expandWith args (pathNames ep) segment = expandSegment args segment
  := by
  unfold expandWith expandSegment
  cases hplaceholder : placeholder? segment with
  | none => rfl
  | some name =>
      dsimp only
      rw [if_pos]
      apply (h.placeholders name).mpr ⟨segment, hsegment, hplaceholder⟩

theorem Describes.notMem_before
    {before after : List Bytes} {name : Bytes} (hsplit : pathNames ep = before ++ name :: after) :
  name ∉ before
  := by
  have hnodup := h.nodup
  rw [hsplit, List.nodup_append] at hnodup
  intro hmem
  apply hnodup.2.2 name hmem name List.mem_cons_self rfl

/-- A placeholder that is its own argument is replaced by leaving it. -/
theorem Describes.map_expandWith_of_same
    {before after : List Bytes} {name : Bytes} (hsplit : pathNames ep = before ++ name :: after)
    (hsame : stringArgument args name = 0x3A :: name) :
  (segments ep.path).map (expandWith args (before ++ [name]))
    = (segments ep.path).map (expandWith args before)
  := by
  have hmem : name ∈ pathNames ep := by
    simp [hsplit]
  have hne := (h.of_mem hmem).1
  apply List.map_congr_left
  intro segment _
  by_cases heq : segment = 0x3A :: name
  · rw [heq, expandWith_placeholder args _ hne, expandWith_placeholder args _ hne,
      if_neg (h.notMem_before hsplit), if_pos (by simp), hsame]
  · apply expandWith_concat_of_ne args before heq

/-- A placeholder that is one segment and no part of those in front of it is replaced there. -/
theorem Describes.replaceF_map_expandWith
    {before after : List Bytes} {name : Bytes} (hsplit : pathNames ep = before ++ name :: after)
    {front back : List Bytes} (hpath : segments ep.path = front ++ (0x3A :: name) :: back)
    (hback : (0x3A :: name) ∉ back)
    (hfront : ∀ segment ∈ front, ¬ (0x3A :: name) <:+: expandWith args before segment) :
  ((segments ep.path).map (expandWith args before)).replaceF (placeholderRule args name)
    = (segments ep.path).map (expandWith args (before ++ [name]))
  := by
  have hmem : name ∈ pathNames ep := by
    simp [hsplit]
  have hne := (h.of_mem hmem).1
  have hself : expandWith args before (0x3A :: name) = 0x3A :: name := by
    rw [expandWith_placeholder args _ hne, if_neg (h.notMem_before hsplit)]
  have hrule : placeholderRule args name (0x3A :: name) = some (stringArgument args name) := by
    rw [placeholderRule_eq_some List.infix_rfl, replaceFirst_self (by simp)]
  have hnone : ∀ b ∈ front.map (expandWith args before), placeholderRule args name b = none := by
    rw [List.forall_mem_map]
    intro segment hsegment
    apply placeholderRule_eq_none_iff.mpr (hfront segment hsegment)
  have hfront' : ∀ segment ∈ front, segment ≠ 0x3A :: name := by
    rintro segment hsegment rfl
    have habsent := hfront _ hsegment
    rw [hself] at habsent
    apply habsent List.infix_rfl
  have hback' : ∀ segment ∈ back, segment ≠ 0x3A :: name := by
    rintro segment hsegment rfl
    apply hback hsegment
  rw [hpath, List.map_append, List.map_cons, hself, Rewriting.replaceF_append_cons hnone hrule,
    List.map_append, List.map_cons, expandWith_placeholder args _ hne, if_pos (by simp)]
  congr 1
  · apply List.map_congr_left
    intro segment hsegment
    rw [expandWith_concat_of_ne args before (hfront' segment hsegment)]
  · congr 1
    apply List.map_congr_left
    intro segment hsegment
    rw [expandWith_concat_of_ne args before (hback' segment hsegment)]

/-- The path with all of its placeholders replaced is what it should be. -/
theorem Describes.replaceAll_path
    {env : Env} (hplain : Unambiguous env ep args) {before after : List Bytes}
    (hsplit : pathNames ep = before ++ after) :
  replaceAll args before ep.path
    = [0x2F].intercalate ((segments ep.path).map (expandWith args before))
  := by
  induction before using List.reverseRecOn generalizing after with
  | nil =>
      have hnil : expandWith args [] = id := by
        funext segment
        apply expandWith_nil
      rw [hnil, List.map_id, segments, List.intercalate_splitOn]
      rfl
  | append_singleton before name ih =>
      rw [List.append_assoc, List.singleton_append] at hsplit
      have hmem : name ∈ pathNames ep := by
        simp [hsplit]
      rw [replaceAll_concat, ih hsplit]
      by_cases hsame : stringArgument args name = 0x3A :: name
      · rw [h.map_expandWith_of_same hsplit hsame, hsame, replaceFirst_same]
      · obtain ⟨front, back, hpath, hback, hfront⟩ := hplain.replaced before name after hsplit hsame
        rw [replaceFirst_intercalate args (h.of_mem hmem).2.2,
          h.replaceF_map_expandWith hsplit hpath hback hfront]

end Describes

/-! ### The parts of the URL -/

theorem stringArgument_of_member {args : Json} {name s : Bytes}
    (h : args.member name = some (.string s)) :
  stringArgument args name = s
  := by
  rw [stringArgument, h]
  rfl

/-- The query text grows by one pair. -/
theorem queryText_concat (pairs : List (Bytes × Bytes)) (pair : Bytes × Bytes) :
  Url.queryText (pairs ++ [pair])
    = Url.queryText pairs
      ++ (if Url.queryText pairs = [] then 0x3F else 0x26) :: Url.pairText pair
  := by
  cases pairs with
  | nil => simp [Url.queryText]
  | cons p pairs => simp [Url.queryText]

theorem addParam_path
    {env : Env} {args : Json} {p : EndpointParam} (hpath : p.location = Bytes.ofAscii "path")
    {s : Bytes} (hs : args.member p.name = some (.string s)) (url query : Bytes) :
  addParam env args (url, query) p
    = some (replaceFirst (0x3A :: p.name) (stringArgument args p.name) url, query)
  := by
  simp [addParam, hs, argument, hpath, stringArgument_of_member hs]

theorem addParam_query
    {env : Env} {args : Json} {p : EndpointParam} (hquery : p.location = Bytes.ofAscii "query")
    {s : Bytes} (hs : args.member p.name = some (.string s)) (url : Bytes)
    (pairs : List (Bytes × Bytes)) :
  addParam env args (url, Url.queryText pairs) p
    = some (url, Url.queryText (pairs ++ [(p.name, stringArgument args p.name)]))
  := by
  have hne : Bytes.ofAscii "query" ≠ Bytes.ofAscii "path" := by
    decide
  rw [queryText_concat]
  simp [addParam, hs, argument, hquery, hne, stringArgument_of_member hs, Url.pairText]

/-- A parameter in another place adds nothing. -/
theorem addParam_other
    {env : Env} {args : Json} {p : EndpointParam} (hpath : p.location ≠ Bytes.ofAscii "path")
    (hquery : p.location ≠ Bytes.ofAscii "query")
    (hserialised : ∀ v, args.member p.name = some v → (argument env v).isSome)
    (url : Bytes × Bytes) :
  addParam env args url p = some url
  := by
  unfold addParam
  cases hmember : args.member p.name with
  | none => rfl
  | some v =>
      obtain ⟨val, hval⟩ := Option.isSome_iff_exists.mp (hserialised v hmember)
      simp [hval, hpath, hquery]

/-- The path and the query after some parameters. -/
theorem foldlM_addParam
    {env : Env} {args : Json} {params : List EndpointParam}
    (hgiven : ∀ p ∈ params,
      p.location = Bytes.ofAscii "path" ∨ p.location = Bytes.ofAscii "query" →
      ∃ s, args.member p.name = some (.string s))
    (hserialised : ∀ p ∈ params, ∀ v, args.member p.name = some v → (argument env v).isSome)
    (url : Bytes) (pairs : List (Bytes × Bytes)) :
  params.foldlM (addParam env args) (url, Url.queryText pairs)
    = some
        (replaceAll args
            ((params.filter (·.location = Bytes.ofAscii "path")).map EndpointParam.name) url,
          Url.queryText (pairs ++
            (params.filter (·.location = Bytes.ofAscii "query")).map fun p =>
              (p.name, stringArgument args p.name)))
  := by
  induction params generalizing url pairs with
  | nil => simp [replaceAll]
  | cons p params ih =>
      obtain ⟨hp, hparams⟩ := List.forall_mem_cons.mp hgiven
      obtain ⟨hsome, hserialised⟩ := List.forall_mem_cons.mp hserialised
      have ih := ih hparams hserialised
      have hne : Bytes.ofAscii "query" ≠ Bytes.ofAscii "path" := by
        decide
      rw [List.foldlM_cons]
      by_cases hpath : p.location = Bytes.ofAscii "path"
      · obtain ⟨s, hs⟩ := hp (.inl hpath)
        rw [addParam_path hpath hs, Option.bind_eq_bind, Option.bind_some, ih]
        simp [hpath, hne.symm, replaceAll]
      · by_cases hquery : p.location = Bytes.ofAscii "query"
        · obtain ⟨s, hs⟩ := hp (.inr hquery)
          rw [addParam_query hquery hs, Option.bind_eq_bind, Option.bind_some, ih]
          simp [hquery, hne]
        · rw [addParam_other hpath hquery hsome, Option.bind_eq_bind, Option.bind_some, ih]
          simp [hpath, hquery]

/-- A URL is made only where every argument can be serialised. -/
theorem isSome_of_foldlM_addParam
    {env : Env} {args : Json} {params : List EndpointParam} {url result : Bytes × Bytes}
    (h : params.foldlM (addParam env args) url = some result) :
  ∀ p ∈ params, ∀ v, args.member p.name = some v → (argument env v).isSome
  := by
  induction params generalizing url with
  | nil => simp
  | cons p params ih =>
      rw [List.foldlM_cons, Option.bind_eq_bind, Option.bind_eq_some_iff] at h
      obtain ⟨next, hstep, hrest⟩ := h
      rw [List.forall_mem_cons]
      use fun v hv => by
        simp only [addParam, hv] at hstep
        obtain ⟨val, hval, -⟩ := Option.map_eq_some_iff.mp hstep
        rw [hval]
        rfl
      apply ih hrest

theorem buildUrl_eq
    {env : Env} {ep : Endpoint} {args : Json} (h : Describes ep args)
    (hserialised : ∀ p ∈ ep.params, ∀ v, args.member p.name = some v → (argument env v).isSome) :
  buildUrl env ep args
    = some (replaceAll args (pathNames ep) ep.path ++ Url.queryText (queryPairs ep args))
  := by
  have hfold := foldlM_addParam h.given hserialised ep.path []
  rw [Url.queryText, List.nil_append] at hfold
  rw [buildUrl, hfold]
  rfl

theorem serialised_of_buildUrl
    {env : Env} {ep : Endpoint} {args : Json} {url : Bytes} (h : buildUrl env ep args = some url) :
  ∀ p ∈ ep.params, ∀ v, args.member p.name = some v → (argument env v).isSome
  := by
  obtain ⟨result, hresult, -⟩ := Option.map_eq_some_iff.mp h
  apply isSome_of_foldlM_addParam hresult

/-- A URL in which nothing is taken for something else is decoded to what it was made from. -/
theorem decodesBack_of_unambiguous
    {env : Env} {ep : Endpoint} {args : Json} (h : Describes ep args)
    (hplain : Unambiguous env ep args) :
  DecodesBack env ep args
  := by
  have hall : (segments ep.path).map (expandWith args (pathNames ep))
      = (segments ep.path).map (expandSegment args) :=
    List.map_congr_left fun segment => h.expandWith_all
  have hpath := h.replaceAll_path hplain (List.append_nil (pathNames ep)).symm
  have hslash : ∀ l ∈ (segments ep.path).map (expandSegment args), 0x2F ∉ l := by
    rw [List.forall_mem_map]
    intro segment hsegment
    apply (hplain.plainPath segment hsegment).1
  rw [hall] at hpath
  use replaceAll args (pathNames ep) ep.path ++ Url.queryText (queryPairs ep args),
    buildUrl_eq h hplain.serialised
  rw [Url.decode_append_queryText_iff, hpath]
  constructor
  · rw [Url.mem_intercalate (by decide)]
    rintro ⟨s, hs, hmem⟩
    obtain ⟨segment, hsegment, rfl⟩ := List.mem_map.mp hs
    apply (hplain.plainPath segment hsegment).2.1 hmem
  · constructor
    · rw [List.splitOn_intercalate _ hslash (by simp [segments, List.splitOn_ne_nil]), List.map_map]
      apply List.map_congr_left
      intro segment hsegment
      apply Url.percentDecode_eq_self_iff.mpr (hplain.plainPath segment hsegment).2.2
    · apply hplain.plainQuery

/-! ### Decoding back -/

/-- The placeholders that are not their own arguments. -/
def proper (args : Json) (name : Bytes) : Bool :=
  stringArgument args name ≠ 0x3A :: name

theorem replaceF_placeholderRule_of_not_proper
    {args : Json} {name : Bytes} (h : proper args name = false) (row : List Bytes) :
  row.replaceF (placeholderRule args name) = row
  := by
  have hsame : stringArgument args name = 0x3A :: name := by
    simpa [proper] using h
  induction row with
  | nil => rfl
  | cons segment row ih =>
      by_cases hinfix : (0x3A :: name) <:+: segment
      · rw [List.replaceF_cons_of_some _ (placeholderRule_eq_some hinfix), hsame,
          replaceFirst_same]
      · rw [List.replaceF_cons_of_none _ (placeholderRule_eq_none_iff.mpr hinfix), ih]

/-- The segments that are not yet what the decoder should read. -/
def pending (ep : Endpoint) (args : Json) : List Bytes :=
  (segments ep.path).filter fun segment =>
    Url.percentDecode segment ≠ expandSegment args segment

/-- A pending segment is not repeated where no pending one is. -/
theorem notMem_of_nodup_pending
    {ep : Endpoint} {args : Json} (hnodup : (pending ep args).Nodup)
    {front back : List Bytes} {segment : Bytes}
    (hpath : segments ep.path = front ++ segment :: back)
    (hwrong : Url.percentDecode segment ≠ expandSegment args segment) :
  segment ∉ back
  := by
  intro hback
  rw [pending, hpath, List.filter_append, List.filter_cons_of_pos (by simpa using hwrong),
    List.nodup_append] at hnodup
  apply (List.nodup_cons.mp hnodup.2.1).1
  rw [List.mem_filter, decide_eq_true_eq]
  use hback

section Converse

variable {ep : Endpoint} {args : Json} (h : Describes ep args)

include h

theorem Describes.mem_pending
    (hescaped : ¬ Escaped ep args) {name : Bytes} (hname : name ∈ pathNames ep)
    (hproper : proper args name = true) :
  0x3A :: name ∈ pending ep args
  := by
  obtain ⟨hne, hsegment, -⟩ := h.of_mem hname
  rw [proper, decide_eq_true_eq] at hproper
  rw [pending, List.mem_filter, decide_eq_true_eq, expandSegment_placeholder args hne]
  use hsegment
  intro hdecode
  by_cases hescape : Url.HasEscape (0x3A :: name)
  · apply hescaped ⟨name, hname, hdecode, hescape⟩
  · rw [Url.percentDecode_eq_self_iff.mpr hescape] at hdecode
    apply hproper hdecode.symm

/-- Where the segments of the path become those that are expected, every placeholder that is not
its own argument has set right a segment of its length, and these have been the pending ones. -/
theorem Describes.setsRight
    (hescaped : ¬ Escaped ep args)
    (hright : (Rewriting.rewrites (placeholderRule args) (pathNames ep) (segments ep.path)).map
      Url.percentDecode = (segments ep.path).map (expandSegment args)) :
  (pending ep args).Nodup ∧
    ∀ before name after, pathNames ep = before ++ name :: after → proper args name = true →
      ∃ a, Rewriting.SetsRight Url.percentDecode (placeholderRule args name)
          (Rewriting.rewrites (placeholderRule args) before (segments ep.path))
          ((segments ep.path).map (expandSegment args)) a ∧
        a.length = (0x3A :: name).length
  := by
  have hfilter (names : List Bytes) (row : List Bytes) :
      Rewriting.rewrites (placeholderRule args) (names.filter (proper args)) row
        = Rewriting.rewrites (placeholderRule args) names row :=
    Rewriting.rewrites_filter _
      (fun name _ hnot row => replaceF_placeholderRule_of_not_proper hnot row) row
  have hnodup : (((pathNames ep).filter (proper args)).map fun name => 0x3A :: name).Nodup := by
    apply (h.nodup.filter _).map
    intro name name' heq
    apply (List.cons.inj heq).2
  have hwrong : Rewriting.wrong Url.percentDecode (segments ep.path)
      ((segments ep.path).map (expandSegment args)) = pending ep args :=
    Rewriting.wrong_map_of _ _ _
  rw [← hfilter] at hright
  have hsize : ∀ name a a', placeholderRule args name a = some a' →
      (0x3A :: name).length ≤ a.length := by
    intro name a a' hrule
    rw [placeholderRule] at hrule
    split_ifs at hrule with hinfix
    apply hinfix.length_le
  have hcells : ∀ name ∈ (pathNames ep).filter (proper args),
      0x3A :: name ∈ Rewriting.wrong Url.percentDecode (segments ep.path)
        ((segments ep.path).map (expandSegment args)) := by
    intro name hname
    obtain ⟨hname, hproper⟩ := List.mem_filter.mp hname
    rw [hwrong]
    apply h.mem_pending hescaped hname hproper
  obtain ⟨hperm, hset⟩ := Rewriting.setsRight_of_right List.length (fun name => 0x3A :: name)
    hsize hnodup hcells hright
  rw [hwrong] at hperm
  use hperm.nodup_iff.mp hnodup
  intro before name after hsplit hproper
  have hset := hset (before.filter (proper args)) name (after.filter (proper args)) (by
    rw [hsplit, List.filter_append, List.filter_cons_of_pos hproper])
  rw [hfilter] at hset
  apply hset

/-- A wrong segment that is a placeholder once others have been replaced has been that placeholder,
where those that have been replaced are right. -/
theorem Describes.eq_of_expandWith
    {before after : List Bytes} {name : Bytes} (hsplit : pathNames ep = before ++ name :: after)
    (hbefore : ∀ m ∈ before, proper args m = true →
      Url.percentDecode (stringArgument args m) = stringArgument args m)
    {segment : Bytes} (hsegment : expandWith args before segment = 0x3A :: name)
    (hwrong : Url.percentDecode (0x3A :: name) ≠ expandSegment args segment) :
  segment = 0x3A :: name
  := by
  unfold expandWith at hsegment
  cases hplaceholder : placeholder? segment with
  | none =>
      rw [hplaceholder] at hsegment
      apply hsegment
  | some m =>
      rw [hplaceholder] at hsegment
      dsimp only at hsegment
      split_ifs at hsegment with hmem
      · cases hproper : proper args m with
        | true =>
            simp only [expandSegment, hplaceholder] at hwrong
            rw [← hsegment] at hwrong
            cases hwrong (hbefore m hmem hproper)
        | false =>
            have hsame : stringArgument args m = 0x3A :: m := by
              simpa [proper] using hproper
            obtain rfl := (List.cons.inj (hsame.symm.trans hsegment)).2
            cases h.notMem_before hsplit hmem
      · apply hsegment

/-- A placeholder that sets a segment right, when those before it have been replaced where they
should, is replaced where it should. -/
theorem Describes.replaced_of_setsRight
    {before after : List Bytes} {name : Bytes} (hsplit : pathNames ep = before ++ name :: after)
    (hnodup : (pending ep args).Nodup)
    (hbefore : ∀ m ∈ before, proper args m = true →
      Url.percentDecode (stringArgument args m) = stringArgument args m)
    {a : Bytes} (hlen : a.length = (0x3A :: name).length)
    (hset : Rewriting.SetsRight Url.percentDecode (placeholderRule args name)
      ((segments ep.path).map (expandWith args before))
      ((segments ep.path).map (expandSegment args)) a) :
  Url.percentDecode (stringArgument args name) = stringArgument args name ∧
    ∃ front back, segments ep.path = front ++ (0x3A :: name) :: back ∧
      (0x3A :: name) ∉ back ∧
      ∀ segment ∈ front, ¬ (0x3A :: name) <:+: expandWith args before segment
  := by
  have hmem : name ∈ pathNames ep := by
    simp [hsplit]
  have hne := (h.of_mem hmem).1
  obtain ⟨_, _, a', values, x, values', hrow, hvalues, hplace, hfront, hrule, hwrong, hright⟩ :=
    hset
  -- the segment that is rewritten is the placeholder, as it has it as a part and its length
  rw [placeholderRule] at hrule
  split_ifs at hrule with hinfix
  obtain rfl := hinfix.eq_of_length hlen.symm
  rw [replaceFirst_self (by simp), Option.some.injEq] at hrule
  obtain ⟨front, rest, hpath, rfl, hrest⟩ := List.map_eq_append_iff.mp hrow
  obtain ⟨segment, back, rfl, hsegment, rfl⟩ := List.map_eq_cons_iff.mp hrest
  rw [hpath, List.map_append, List.map_cons] at hvalues
  obtain ⟨-, hcell⟩ := List.append_inj hvalues (by simpa using hplace)
  obtain ⟨rfl, -⟩ := List.cons.inj hcell
  obtain rfl := h.eq_of_expandWith hsplit hbefore hsegment hwrong
  constructor
  · rw [expandSegment_placeholder args hne] at hright
    rw [hrule, hright, hrule]
  · use front, back, hpath, notMem_of_nodup_pending hnodup hpath hwrong
    intro segment hsegment
    apply placeholderRule_eq_none_iff.mp
    apply hfront
    apply List.mem_map_of_mem hsegment

theorem Describes.replaced_of_rewrites
    (hescaped : ¬ Escaped ep args)
    (hright : (Rewriting.rewrites (placeholderRule args) (pathNames ep) (segments ep.path)).map
      Url.percentDecode = (segments ep.path).map (expandSegment args))
    {before after : List Bytes} {name : Bytes} (hsplit : pathNames ep = before ++ name :: after)
    (hproper : proper args name = true)
    (hrewrites : Rewriting.rewrites (placeholderRule args) before (segments ep.path)
      = (segments ep.path).map (expandWith args before))
    (hbefore : ∀ m ∈ before, proper args m = true →
      Url.percentDecode (stringArgument args m) = stringArgument args m) :
  Url.percentDecode (stringArgument args name) = stringArgument args name ∧
    ∃ front back, segments ep.path = front ++ (0x3A :: name) :: back ∧
      (0x3A :: name) ∉ back ∧
      ∀ segment ∈ front, ¬ (0x3A :: name) <:+: expandWith args before segment
  := by
  obtain ⟨hnodup, hset⟩ := h.setsRight hescaped hright
  obtain ⟨a, ha, hlen⟩ := hset before name after hsplit hproper
  rw [hrewrites] at ha
  apply h.replaced_of_setsRight hsplit hnodup hbefore hlen ha

/-- Every placeholder that is not its own argument is replaced where it should. -/
theorem Describes.rewrites_before
    (hescaped : ¬ Escaped ep args)
    (hright : (Rewriting.rewrites (placeholderRule args) (pathNames ep) (segments ep.path)).map
      Url.percentDecode = (segments ep.path).map (expandSegment args))
    {before after : List Bytes} (hsplit : pathNames ep = before ++ after) :
  Rewriting.rewrites (placeholderRule args) before (segments ep.path)
      = (segments ep.path).map (expandWith args before) ∧
    ∀ m ∈ before, proper args m = true →
      Url.percentDecode (stringArgument args m) = stringArgument args m
  := by
  induction before using List.reverseRecOn generalizing after with
  | nil =>
      have hnil : expandWith args [] = id := by
        funext segment
        apply expandWith_nil
      rw [hnil, List.map_id]
      use rfl
      simp
  | append_singleton before name ih =>
      rw [List.append_assoc, List.singleton_append] at hsplit
      obtain ⟨hrewrites, hbefore⟩ := ih hsplit
      rw [Rewriting.rewrites_concat, hrewrites, List.forall_mem_append, List.forall_mem_singleton]
      cases hproper : proper args name with
      | false =>
          have hsame : stringArgument args name = 0x3A :: name := by
            simpa [proper] using hproper
          rw [replaceF_placeholderRule_of_not_proper hproper,
            h.map_expandWith_of_same hsplit hsame]
          use rfl, hbefore
          simp
      | true =>
          obtain ⟨hdecode, front, back, hpath, hback, hfront⟩ :=
            h.replaced_of_rewrites hescaped hright hsplit hproper hrewrites hbefore
          rw [h.replaceF_map_expandWith hsplit hpath hback hfront]
          use rfl, hbefore
          intro _
          apply hdecode

/-- A URL that is decoded to what it was made from has nothing in it that is taken for something
else. -/
theorem Describes.unambiguous_of_decodesBack
    {env : Env} (hescaped : ¬ Escaped ep args) (hdecodes : DecodesBack env ep args) :
  Unambiguous env ep args
  := by
  obtain ⟨url, hurl, hdecode⟩ := hdecodes
  have hserialised := serialised_of_buildUrl hurl
  obtain rfl := Option.some.inj ((buildUrl_eq h hserialised).symm.trans hurl)
  obtain ⟨hquestion, hpath, hquery⟩ := Url.decode_append_queryText_iff.mp hdecode
  have hlen := congrArg List.length hpath
  rw [List.length_map, List.length_map] at hlen
  have hsegments :=
    (segments_replaceAll args (fun name hname => (h.of_mem hname).2.2) ep.path).2 hlen
  rw [← segments, hsegments] at hpath
  have hright := hpath
  have hfinal := (h.rewrites_before hescaped hpath (List.append_nil (pathNames ep)).symm).1
  have hall : (segments ep.path).map (expandWith args (pathNames ep))
      = (segments ep.path).map (expandSegment args) :=
    List.map_congr_left fun segment => h.expandWith_all
  rw [hfinal, hall] at hpath hsegments
  constructor
  case serialised => apply hserialised
  case replaced =>
      intro before name after hsplit hne
      obtain ⟨hrewrites, hbefore⟩ := h.rewrites_before hescaped hright hsplit
      have hproper : proper args name = true := by
        simpa [proper] using hne
      apply (h.replaced_of_rewrites hescaped hright hsplit hproper hrewrites hbefore).2
  case plainPath =>
      intro segment hsegment
      have hmem :
          expandSegment args segment ∈ segments (replaceAll args (pathNames ep) ep.path) := by
        rw [hsegments]
        apply List.mem_map_of_mem hsegment
      use slash_not_mem_segment hmem
      constructor
      · intro hin
        have hjoin : [0x2F].intercalate (segments (replaceAll args (pathNames ep) ep.path))
            = replaceAll args (pathNames ep) ep.path :=
          List.intercalate_splitOn 0x2F
        apply hquestion
        rw [← hjoin, Url.mem_intercalate (by decide)]
        use expandSegment args segment, hmem
      · rw [List.map_map] at hpath
        apply Url.percentDecode_eq_self_iff.mp (List.map_inj_left.mp hpath segment hsegment)
  case plainQuery => apply hquery

end Converse

/-- The URL is decoded to what it was made from if nothing in it is taken for something else, and
only then, except for placeholders with escapes whose argument is what they are decoded to. -/
theorem decodesBack_iff
    (env : Env) {ep : Endpoint} {args : Json} (h : Describes ep args) :
  (Unambiguous env ep args → DecodesBack env ep args) ∧
    (¬ Escaped ep args → DecodesBack env ep args → Unambiguous env ep args)
  := by
  constructor
  · intro hplain
    apply decodesBack_of_unambiguous h hplain
  · intro hescaped hdecodes
    apply h.unambiguous_of_decodesBack hescaped hdecodes


/-- An endpoint with a placeholder and a parameter in the query. -/
def deviceState : Endpoint where
  path := Bytes.ofAscii "/devices/:id"
  name := Bytes.ofAscii "device_state"
  method := .get
  params :=
    [{ name := Bytes.ofAscii "id"
       location := Bytes.ofAscii "path"
       type := Bytes.ofAscii "string"
       description := [] },
      { name := Bytes.ofAscii "unit"
        location := Bytes.ofAscii "query"
        type := Bytes.ofAscii "string"
        description := [] }]

/-- The arguments of a call about a device. -/
def deviceArguments (id : Bytes) : Json :=
  .object
    [(Bytes.ofAscii "id", .string id), (Bytes.ofAscii "unit", .string (Bytes.ofAscii "C"))]

theorem describes_deviceState (id : Bytes) :
  Describes deviceState (deviceArguments id)
  := by
  have hsegments :
      segments deviceState.path = [[], Bytes.ofAscii "devices", Bytes.ofAscii ":id"] := by
    decide
  have hnames : pathNames deviceState = [Bytes.ofAscii "id"] := by
    decide
  constructor
  case nodup =>
      rw [hnames]
      apply List.nodup_singleton
  case placeholders =>
      intro name
      have hid : placeholder? (Bytes.ofAscii ":id") = some (Bytes.ofAscii "id") := by
        decide
      have hdevices : placeholder? (Bytes.ofAscii "devices") = none := by
        decide
      have hnil : placeholder? [] = none := by
        rfl
      rw [hsegments, hnames]
      simp [hid, hdevices, hnil, eq_comm]
  case given =>
      intro p hp _
      simp only [deviceState, List.mem_cons, List.not_mem_nil, or_false] at hp
      rcases hp with rfl | rfl
      · use id
        rfl
      · use Bytes.ofAscii "C"
        rfl

/-- The URL for the lamp is decoded to its parts, so nothing in it is ambiguous. -/
theorem decodesBack_iff_deviceState :
  DecodesBack offline deviceState (deviceArguments (Bytes.ofAscii "lamp"))
    ∧ Unambiguous offline deviceState (deviceArguments (Bytes.ofAscii "lamp"))
  := by
  have hdecodes : DecodesBack offline deviceState (deviceArguments (Bytes.ofAscii "lamp")) := by
    use Bytes.ofAscii "/devices/lamp?unit=C"
    decide +kernel
  have hescaped : ¬ Escaped deviceState (deviceArguments (Bytes.ofAscii "lamp")) := by
    rintro ⟨name, hname, hdecode, -⟩
    have hnames : pathNames deviceState = [Bytes.ofAscii "id"] := by
      decide
    rw [hnames, List.mem_singleton] at hname
    subst hname
    revert hdecode
    decide +kernel
  use hdecodes
  apply (decodesBack_iff offline (describes_deviceState (Bytes.ofAscii "lamp"))).2 hescaped hdecodes

/-- An argument with a slash in it makes two segments. -/
theorem not_decodesBack_slash :
  ¬ ∀ (env : Env) (ep : Endpoint) (args : Json), Describes ep args →
      (∀ name ∈ pathNames ep, stringArgument args name ≠ []) → DecodesBack env ep args
  := by
  intro h
  obtain ⟨url, hurl, hdecode⟩ := h offline deviceState
    (deviceArguments (Bytes.ofAscii "lamp/off")) (describes_deviceState _) (by decide)
  have hbuild : buildUrl offline deviceState (deviceArguments (Bytes.ofAscii "lamp/off"))
      = some (Bytes.ofAscii "/devices/lamp/off?unit=C") := by
    decide +kernel
  obtain rfl := Option.some.inj (hbuild.symm.trans hurl)
  have hlen := congrArg (fun r => r.1.length) hdecode
  revert hlen
  decide +kernel

end McpServer

end NexusMainframe
