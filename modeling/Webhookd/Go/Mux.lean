import Webhookd.Go.Json

/-!
# Routing of `net/http`

The path of a request target is percent-encoded; `URL.Path` is its decoding.
`ServeMux` cleans the encoded path, and redirects if this changes it; otherwise
it matches the path segment by segment, decoding each one, against the patterns
that are registered. Of the patterns those with a host, and the wildcards `{$}`
and `{name...}`, are left out.

* `unescape_append_slash`: a path decodes to the decodings of its segments;
* `ServeMux.matches_of_findHandler`: what is dispatched matches a pattern, by the
  path as it was sent;
* `ServeMux.pattern_findHandler`: the pattern of a request was registered.
-/

namespace Go

/-! ## Paths -/

/-- Percent-decoding, as in `url.PathUnescape`. -/
def unescape : GoString → Option GoString
  | [] => some []
  | b :: bs =>
    if b = ch '%' then
      match bs with
      | h :: l :: bs => do
        let x ← fromHexChar h
        let y ← fromHexChar l
        (unescape bs).map (.ofNat (16 * x + y) :: ·)
      | _ => none
    else (unescape bs).map (b :: ·)

/-- `pathUnescape`: what cannot be decoded is left as it is. -/
def pathUnescape (s : GoString) : GoString := (unescape s).getD s

/-- One round of the loop of `path.Clean`, on a path that starts with a slash. -/
def cleanSegment (out : List GoString) (seg : GoString) : List GoString :=
  if seg = [] ∨ seg = lit "." then out
  else if seg = lit ".." then out.dropLast
  else out ++ [seg]

/-- `path.Clean`, on a path that starts with a slash. -/
def clean (p : GoString) : GoString :=
  ch '/' :: (lit "/").intercalate ((p.splitOn (ch '/')).foldl cleanSegment [])

/-- `cleanPath` of `net/http`: a slash at the end stays. -/
def cleanPath (p : GoString) : GoString :=
  let p := if p.head? = some (ch '/') then p else ch '/' :: p
  let np := clean p
  if p.getLast? = some (ch '/') ∧ np ≠ lit "/" then np ++ lit "/" else np

/-- The segments of a path that starts with a slash, decoded. A slash at the end is
    a segment of its own. -/
def segments : GoString → List GoString
  | [] => []
  | _ :: p => decodeAll (p.splitOn (ch '/'))
where
  decodeAll : List GoString → List GoString
    | [] => []
    | [s] => [if s = [] then lit "/" else pathUnescape s]
    | s :: ss => pathUnescape s :: decodeAll ss

/-! ## Patterns -/

/-- A segment of a pattern; `rest` is the slash at the end of one, for the paths
    below. -/
inductive PatternSegment
  | literal (s : GoString)
  | wildcard (name : GoString)
  | rest
  deriving DecidableEq

/-- A pattern of `ServeMux`, and how it was written. -/
structure Pattern where
  method : GoString
  segments : List PatternSegment
  text : GoString
  deriving DecidableEq

/-- The pattern begins with a literal segment. -/
def Pattern.startsLiteral (p : Pattern) : Bool :=
  match p.segments with
  | .literal s :: _ => s ≠ lit "/" && s ≠ []
  | _ => false

/-- A node of the routing tree: the patterns below it, with the segments that remain. -/
abbrev RoutingNode := List (List PatternSegment × Pattern)

namespace RoutingNode

/-- The patterns of a method. -/
def ofMethod (ps : List Pattern) (method : GoString) : RoutingNode :=
  (ps.filter (·.method = method)).map fun p => (p.segments, p)

def findChild (n : RoutingNode) (s : GoString) : RoutingNode :=
  n.filterMap fun
    | (.literal l :: segs, p) => if l = s then some (segs, p) else none
    | _ => none

def emptyChild (n : RoutingNode) : RoutingNode :=
  n.filterMap fun
    | (.wildcard _ :: segs, p) => some (segs, p)
    | _ => none

def multiChild (n : RoutingNode) : Option Pattern :=
  n.findSome? fun
    | ([.rest], p) => some p
    | _ => none

/-- The pattern that ends here. -/
def leaf (n : RoutingNode) : Option Pattern :=
  n.findSome? fun
    | ([], p) => some p
    | _ => none

/-- `matchPath`: literals go before wildcards, and these before the paths below. A
    wildcard does not match the slash at the end. -/
def matchPath (n : RoutingNode) : List GoString → List GoString →
    Option (Pattern × List GoString)
  | [], values => n.leaf.map (·, values)
  | s :: ss, values =>
    matchPath (n.findChild s) ss values <|>
      (if s = lit "/" then none else matchPath n.emptyChild ss (values ++ [s])) <|>
      n.multiChild.map (·, values)

end RoutingNode

/-! ## The mux -/

/-- What is read of a request target: the path as it was sent, and its decoding. -/
structure Target where
  method : GoString
  requestURI : GoString
  escapedPath : GoString
  path : GoString
  unescape_eq : unescape escapedPath = some path

/-- The path that is matched. Those of `CONNECT` requests are not cleaned. -/
def Target.cleaned (r : Target) : GoString :=
  if r.method = lit "CONNECT" then r.escapedPath else cleanPath r.escapedPath

/-- What becomes of a request. -/
inductive Routed
  | badRequest
  | redirect (pattern : GoString)
  | matched (p : Pattern) (values : List GoString)
  | methodNotAllowed
  | notFound

/-- `http.ServeMux`, by the patterns that are registered. -/
abbrev ServeMux := List Pattern

namespace ServeMux

/-- `matchMethodAndPath`: a `GET` pattern also matches `HEAD`. -/
def matchMethodAndPath (ps : ServeMux) (method path : GoString) :
    Option (Pattern × List GoString) :=
  (RoutingNode.ofMethod ps method).matchPath (segments path) [] <|>
    (if method = lit "HEAD" then
      (RoutingNode.ofMethod ps (lit "GET")).matchPath (segments path) [] else none) <|>
    (RoutingNode.ofMethod ps []).matchPath (segments path) []

/-- `exactMatch`: the paths below a pattern do not match it exactly. -/
def exactMatch (path : GoString) (m : Option (Pattern × List GoString)) : Bool :=
  m.any fun (p, _) =>
    p.segments.getLast? ≠ some .rest ||
      (path.getLast? = some (ch '/') && p.segments.length = path.count (ch '/'))

/-- `matchOrRedirect`: a path that only lacks the slash at the end is redirected. -/
def matchOrRedirect (ps : ServeMux) (method path : GoString) :
    Option (Pattern × List GoString) × Option Pattern :=
  let m := ps.matchMethodAndPath method path
  if exactMatch path m ∨ path.getLast? = some (ch '/') then (m, none)
  else
    let slash := path ++ lit "/"
    let m₂ := ps.matchMethodAndPath method slash
    if exactMatch slash m₂ then (none, m₂.map (·.1)) else (m, none)

/-- Some pattern matches the path, with another method. -/
def otherMethod (ps : ServeMux) (path : GoString) : Bool :=
  ps.any fun p => (ps.matchMethodAndPath p.method path).isSome ||
    (ps.matchMethodAndPath p.method (path ++ lit "/")).isSome

/-- `findHandler`. -/
def findHandler (ps : ServeMux) (r : Target) : Routed :=
  if r.requestURI = lit "*" then .badRequest
  else
    match ps.matchOrRedirect r.method r.cleaned with
    | (_, some p) => .redirect p.text
    | (m, none) =>
      if r.cleaned ≠ r.escapedPath then .redirect ((m.map (·.1.text)).getD [])
      else
        match m with
        | some (p, values) => .matched p values
        | none => if ps.otherMethod r.cleaned then .methodNotAllowed else .notFound

end ServeMux

/-- `r.PathValue(name)`, of a matched request. -/
def Pattern.pathValue (p : Pattern) (values : List GoString) (name : GoString) : GoString :=
  let names := p.segments.filterMap fun
    | .wildcard n => some n
    | _ => none
  ((names.zip values).lookup name).getD []

/-- `r.Pattern`, after routing. -/
def Routed.pattern : Routed → GoString
  | .redirect pattern => pattern
  | .matched p _ => p.text
  | .badRequest | .methodNotAllowed | .notFound => []

/-! ## What is decoded -/

theorem unescape_cons_of_ne {b : UInt8} (h : b ≠ ch '%') (bs : GoString) :
    unescape (b :: bs) = (unescape bs).map (b :: ·) := by
  rw [unescape.eq_def]
  simp only [if_neg h]

/-- A slash is no part of an escape, so what is before it and after it is decoded on
    its own. -/
theorem unescape_append_slash {a b r : GoString} (h : unescape (a ++ ch '/' :: b) = some r) :
    ∃ a' b', unescape a = some a' ∧ unescape b = some b' ∧ r = a' ++ ch '/' :: b' := by
  induction a using unescape.induct generalizing r with
  | case1 =>
    rw [List.nil_append, unescape_cons_of_ne (by decide)] at h
    obtain ⟨b', hb, rfl⟩ := Option.map_eq_some_iff.mp h
    exact ⟨[], b', rfl, hb, rfl⟩
  | case2 hi lo bs ih =>
    rw [List.cons_append, List.cons_append, List.cons_append, unescape, if_pos rfl] at h
    obtain ⟨x, hx, h⟩ := Option.bind_eq_some_iff.mp h
    obtain ⟨y, hy, h⟩ := Option.bind_eq_some_iff.mp h
    obtain ⟨r', hr, rfl⟩ := Option.map_eq_some_iff.mp h
    obtain ⟨a', b', ha, hb, rfl⟩ := ih hr
    exact ⟨_, b', by rw [unescape, if_pos rfl, hx, hy, ha]; rfl, hb, rfl⟩
  | case3 bs hbs =>
    -- An escape that is cut short would have the slash for a digit.
    have hslash : fromHexChar (ch '/') = none := by decide
    rcases bs with _ | ⟨hi, _ | ⟨lo, bs⟩⟩
    · rcases b with _ | ⟨lo, b⟩
      · cases h
      · simp [unescape, hslash] at h
    · simp [unescape, hslash] at h
    · exact (hbs hi lo bs rfl).elim
  | case4 c bs hc ih =>
    rw [List.cons_append, unescape_cons_of_ne hc] at h
    obtain ⟨r', hr, rfl⟩ := Option.map_eq_some_iff.mp h
    obtain ⟨a', b', ha, hb, rfl⟩ := ih hr
    exact ⟨_, b', by rw [unescape_cons_of_ne hc, ha]; rfl, hb, rfl⟩

/-- A path with two segments, of which the last is not the slash at its end. -/
theorem path_of_segments_pair {c : UInt8} {p path a b : GoString}
    (h : segments (c :: p) = [a, b]) (hb : b ≠ lit "/") (hp : unescape p = some path) :
    path = a ++ ch '/' :: b := by
  have hsplit : [ch '/'].intercalate (p.splitOn (ch '/')) = p := List.intercalate_splitOn _
  rw [segments] at h
  rcases hl : p.splitOn (ch '/') with _ | ⟨s, _ | ⟨s', _ | ⟨s'', l⟩⟩⟩ <;> rw [hl] at h hsplit
  · cases h
  · cases h
  · obtain ⟨ha, hs'⟩ := List.cons.inj h
    obtain rfl := ha
    obtain ⟨rfl, -⟩ := List.cons.inj hs'
    have hp' : p = s ++ ch '/' :: s' := by
      rw [← hsplit]
      simp [List.intercalate, List.intersperse]
    rw [hp'] at hp
    obtain ⟨a', b', ha, hb', rfl⟩ := unescape_append_slash hp
    split_ifs at hb ⊢ with hnil
    · exact absurd rfl hb
    · rw [pathUnescape, pathUnescape, ha, hb']
      rfl
  · obtain ⟨-, h⟩ := List.cons.inj h
    obtain ⟨-, h⟩ := List.cons.inj h
    rcases l with _ | ⟨_, _⟩ <;> cases h

theorem cleanPath_head (p : GoString) : ∃ p', cleanPath p = ch '/' :: p' := by
  simp only [cleanPath, clean]
  split_ifs <;> exact ⟨_, rfl⟩

/-! ## What is matched -/

/-- The segments of a pattern match those of a path, with the values of its wildcards. -/
inductive Matches : List PatternSegment → List GoString → List GoString → Prop
  | nil : Matches [] [] []
  | literal {s segs ss values} (h : Matches segs ss values) :
      Matches (.literal s :: segs) (s :: ss) values
  | wildcard {name s segs ss values} (hs : s ≠ lit "/") (h : Matches segs ss values) :
      Matches (.wildcard name :: segs) (s :: ss) (s :: values)
  | rest {s ss} : Matches [.rest] (s :: ss) []

namespace RoutingNode

variable {n : RoutingNode} {p : Pattern} {segs : List PatternSegment} {s : GoString}

theorem mem_findChild (h : (segs, p) ∈ n.findChild s) : (.literal s :: segs, p) ∈ n := by
  obtain ⟨⟨segs', p'⟩, hmem, h⟩ := List.mem_filterMap.mp h
  rcases segs' with _ | ⟨_ | _ | _, segs'⟩ <;> try cases h
  simp only at h
  split_ifs at h with hs
  obtain ⟨rfl, rfl⟩ := Prod.mk.inj (Option.some.inj h)
  exact hs ▸ hmem

theorem mem_emptyChild (h : (segs, p) ∈ n.emptyChild) :
    ∃ name, (.wildcard name :: segs, p) ∈ n := by
  obtain ⟨⟨segs', p'⟩, hmem, h⟩ := List.mem_filterMap.mp h
  rcases segs' with _ | ⟨_ | name | _, segs'⟩ <;> try cases h
  exact ⟨name, hmem⟩

theorem mem_of_multiChild (h : n.multiChild = some p) : ([.rest], p) ∈ n := by
  obtain ⟨⟨segs', p'⟩, hmem, h⟩ := List.exists_of_findSome?_eq_some h
  rcases segs' with _ | ⟨_ | _ | _, _ | ⟨_, _⟩⟩ <;> cases h
  exact hmem

theorem mem_of_leaf (h : n.leaf = some p) : ([], p) ∈ n := by
  obtain ⟨⟨segs', p'⟩, hmem, h⟩ := List.exists_of_findSome?_eq_some h
  rcases segs' with _ | ⟨_, _⟩ <;> cases h
  exact hmem

/-- What is found below a node is one of its patterns, and matches. -/
theorem matches_of_matchPath {ss values values' : List GoString}
    (h : n.matchPath ss values = some (p, values')) :
    ∃ segs ws, (segs, p) ∈ n ∧ Matches segs ss ws ∧ values' = values ++ ws := by
  induction ss generalizing n values with
  | nil =>
    obtain ⟨p', hp, heq⟩ := Option.map_eq_some_iff.mp h
    obtain ⟨rfl, rfl⟩ := Prod.mk.inj heq
    exact ⟨[], [], mem_of_leaf hp, .nil, (List.append_nil _).symm⟩
  | cons s ss ih =>
    simp only [matchPath, Option.orElse_eq_orElse, Option.orElse_eq_or, Option.or_eq_some_iff] at h
    rcases h with h | ⟨-, h | ⟨-, h⟩⟩
    · obtain ⟨segs, ws, hmem, hm, hv⟩ := ih h
      exact ⟨_, ws, mem_findChild hmem, .literal hm, hv⟩
    · split_ifs at h with hs
      obtain ⟨segs, ws, hmem, hm, rfl⟩ := ih h
      obtain ⟨name, hmem⟩ := mem_emptyChild hmem
      exact ⟨_, _, hmem, .wildcard hs hm, List.append_assoc ..⟩
    · obtain ⟨p', hp, heq⟩ := Option.map_eq_some_iff.mp h
      obtain ⟨rfl, rfl⟩ := Prod.mk.inj heq
      exact ⟨_, [], mem_of_multiChild hp, .rest, (List.append_nil _).symm⟩

end RoutingNode

namespace ServeMux

variable {ps : ServeMux} {p : Pattern} {method path : GoString} {values : List GoString}
  {r : Target}

theorem matches_of_matchMethodAndPath
    (h : ps.matchMethodAndPath method path = some (p, values)) :
    p ∈ ps ∧ (p.method = method ∨ p.method = lit "GET" ∧ method = lit "HEAD" ∨ p.method = []) ∧
      Matches p.segments (segments path) values := by
  have hnode : ∀ {m}, (RoutingNode.ofMethod ps m).matchPath (segments path) [] = some (p, values) →
      p ∈ ps ∧ p.method = m ∧ Matches p.segments (segments path) values := by
    intro m hm
    obtain ⟨segs, ws, hmem, hmat, rfl⟩ := RoutingNode.matches_of_matchPath hm
    obtain ⟨p', hp', heq⟩ := List.mem_map.mp hmem
    obtain ⟨rfl, rfl⟩ := Prod.mk.inj heq
    obtain ⟨hps, hmethod⟩ := List.mem_filter.mp hp'
    exact ⟨hps, of_decide_eq_true hmethod, hmat⟩
  simp only [matchMethodAndPath, Option.orElse_eq_orElse, Option.orElse_eq_or,
    Option.or_eq_some_iff] at h
  rcases h with h | ⟨-, h | ⟨-, h⟩⟩
  · obtain ⟨hps, hm, hmat⟩ := hnode h
    exact ⟨hps, .inl hm, hmat⟩
  · split_ifs at h with hhead
    obtain ⟨hps, hm, hmat⟩ := hnode h
    exact ⟨hps, .inr (.inl ⟨hm, hhead⟩), hmat⟩
  · obtain ⟨hps, hm, hmat⟩ := hnode h
    exact ⟨hps, .inr (.inr hm), hmat⟩

/-- What is matched, or redirected to, was found by its method and path. -/
theorem matchOrRedirect_cases {m : Option (Pattern × List GoString)} {red : Option Pattern}
    (h : ps.matchOrRedirect method path = (m, red)) :
    (red = none ∧ m = ps.matchMethodAndPath method path) ∨
      ∃ q vs, red = some q ∧ ps.matchMethodAndPath method (path ++ lit "/") = some (q, vs) := by
  simp only [matchOrRedirect] at h
  split_ifs at h with hexact hslash
  · obtain ⟨rfl, rfl⟩ := Prod.mk.inj h
    exact .inl ⟨rfl, rfl⟩
  · obtain ⟨-, rfl⟩ := Prod.mk.inj h
    obtain ⟨⟨q, vs⟩, hq, -⟩ := (Option.any_eq_true ..).mp hslash
    exact .inr ⟨q, vs, by rw [hq]; rfl, hq⟩
  · obtain ⟨rfl, rfl⟩ := Prod.mk.inj h
    exact .inl ⟨rfl, rfl⟩

/-- A request is dispatched by its path as it was sent, which is clean. -/
theorem matches_of_findHandler (h : ps.findHandler r = .matched p values) :
    p ∈ ps ∧ (p.method = r.method ∨ p.method = lit "GET" ∧ r.method = lit "HEAD" ∨
      p.method = []) ∧ Matches p.segments (segments r.escapedPath) values ∧
      (r.method ≠ lit "CONNECT" → cleanPath r.escapedPath = r.escapedPath) := by
  rw [findHandler] at h
  split at h
  · cases h
  split at h
  · cases h
  · rename_i m hm
    obtain ⟨-, rfl⟩ | ⟨_, _, hred, -⟩ := matchOrRedirect_cases hm
    · split at h
      · cases h
      · rename_i hclean
        push Not at hclean
        split at h
        · rename_i hmatch
          obtain ⟨rfl, rfl⟩ := Routed.matched.inj h
          obtain ⟨hps, hmethod, hmat⟩ := matches_of_matchMethodAndPath hmatch
          exact ⟨hps, hmethod, hclean ▸ hmat, fun hc => (if_neg hc).symm.trans hclean⟩
        · split at h <;> cases h
    · cases hred

/-- The pattern of a request is one that was registered, or empty. -/
theorem pattern_findHandler (ps : ServeMux) (r : Target) :
    (ps.findHandler r).pattern = [] ∨ (ps.findHandler r).pattern ∈ ps.map (·.text) := by
  have htext : ∀ {method path q vs}, ps.matchMethodAndPath method path = some (q, vs) →
      q.text ∈ ps.map (·.text) := fun h =>
    List.mem_map.mpr ⟨_, (matches_of_matchMethodAndPath h).1, rfl⟩
  rw [findHandler]
  split
  · exact .inl rfl
  split
  · rename_i q hred
    obtain ⟨hnone, -⟩ | ⟨q', vs, hq, hmatch⟩ := matchOrRedirect_cases hred
    · cases hnone
    · obtain rfl := Option.some.inj hq
      exact .inr (htext hmatch)
  · rename_i m hm
    obtain ⟨-, hmatch⟩ | ⟨_, _, hred, -⟩ := matchOrRedirect_cases hm
    · rcases m with _ | ⟨q, vs⟩
      · split_ifs <;> exact .inl rfl
      · split_ifs <;> exact .inr (htext hmatch.symm)
    · cases hred

/-- Where every pattern begins with a literal, none matches the root. -/
theorem findHandler_root (hps : ∀ p ∈ ps, p.startsLiteral = true) (huri : r.requestURI ≠ lit "*")
    (hpath : r.escapedPath = lit "/") : ps.findHandler r = .notFound := by
  have hnone : ∀ method path, (segments path).head? = some (lit "/") ∨
      (segments path).head? = some [] → ps.matchMethodAndPath method path = none := by
    intro method path hseg
    by_contra hne
    obtain ⟨⟨p, values⟩, hm⟩ := Option.ne_none_iff_exists'.mp hne
    obtain ⟨hp, -, hmat⟩ := matches_of_matchMethodAndPath hm
    have hlit := hps p hp
    rw [Pattern.startsLiteral] at hlit
    generalize segments path = ss at hmat hseg
    generalize p.segments = segs at hmat hlit
    cases hmat with
    | literal => rcases hseg with hs | hs <;> simp_all
    | _ => cases hlit
  have hclean : r.cleaned = lit "/" := by
    have hroot : cleanPath (lit "/") = lit "/" := by decide +kernel
    rw [Target.cleaned, hpath, hroot, ite_self]
  have hmatch : ps.matchOrRedirect r.method (lit "/") = (none, none) := by
    rw [matchOrRedirect, if_pos (.inr (by decide)), hnone _ _ (.inl (by decide))]
  have hother : ps.otherMethod (lit "/") = false := by
    rw [otherMethod, List.any_eq_false]
    intro p _
    rw [hnone _ _ (.inl (by decide)), hnone _ _ (.inr (by decide))]
    decide
  rw [findHandler, if_neg huri, hclean, hmatch, hpath]
  simp [hother]

end ServeMux

end Go
