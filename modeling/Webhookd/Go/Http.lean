import Webhookd.Go.Strconv

/-!
# Requests of `net/http`

The header of an incoming request and reading its body. `net/http` refuses a
request with a field name that is not a token, stores the others under their
canonical form, and takes two of them out of the header (`promoted`).

It interprets some of the fields that it keeps, and answers a request by itself if
it does not like them: `Header.Delivered` says which header and body a handler can
get of a request. The limit on the size of a header is left out.

* `Header.get_ofPairs` computes the lookups in a header given by its fields;
* `Header.Delivered.contentLength_digit` and `Header.Delivered.expect_token` say what
  the fields that are interpreted can hold.
-/

namespace Go

/-! ## Headers -/

/-- A byte of a token. -/
def validHeaderFieldByte (b : UInt8) : Bool :=
  (48 ≤ b && b ≤ 57) || (65 ≤ b && b ≤ 90) || (97 ≤ b && b ≤ 122) ||
    (lit "!#$%&'*+-.^_`|~").contains b

/-- `httpguts.ValidHeaderFieldName`. -/
def validHeaderFieldName (s : GoString) : Bool := !s.isEmpty && s.all validHeaderFieldByte

/-- A token is in ASCII. -/
theorem validString_of_token {s : GoString} (h : validHeaderFieldName s = true) :
    ValidString s := by
  have hbyte : ∀ n < 256, validHeaderFieldByte (.ofNat n) = true → n < 0x80 := by decide +kernel
  rw [validHeaderFieldName, Bool.and_eq_true, List.all_eq_true] at h
  refine validString_of_ascii fun b hb => hbyte b.toNat b.toNat_lt ?_
  rw [UInt8.ofNat_toNat]
  exact h.2 b hb

/-- The bytes of a canonical name: upper case at the start and after a hyphen,
    and otherwise lower case. -/
def canonicalBytes : Bool → GoString → GoString
  | _, [] => []
  | upper, b :: bs =>
    let c := if upper && 97 ≤ b && b ≤ 122 then b - 32
      else if !upper && 65 ≤ b && b ≤ 90 then b + 32 else b
    c :: canonicalBytes (c == ch '-') bs

/-- `textproto.CanonicalMIMEHeaderKey`, which leaves a name that is not a token
    as it is. -/
def canonicalMIMEHeaderKey (s : GoString) : GoString :=
  if s.all validHeaderFieldByte then canonicalBytes true s else s

/-- The fields that `net/http` takes out of the header of a request, into fields
    of the request itself. -/
def promoted : List GoString := [lit "Host", lit "Transfer-Encoding"]

/-- A name under which a header can hold values. -/
def HeaderKey (k : GoString) : Prop :=
  validHeaderFieldName k ∧ canonicalMIMEHeaderKey k = k ∧ k ∉ promoted

instance (k : GoString) : Decidable (HeaderKey k) := inferInstanceAs (Decidable (_ ∧ _))

/-- `http.Header`, of an incoming request. -/
structure Header where
  values : GoString → List GoString
  key_of_mem : ∀ {k v}, v ∈ values k → HeaderKey k

namespace Header

/-- `h.Get(key)`: the first value, or the empty string. -/
def get (h : Header) (key : GoString) : GoString :=
  (h.values (canonicalMIMEHeaderKey key)).headD []

/-- The header with the given fields, as they were sent. -/
def ofPairs (fs : List (GoString × GoString)) : Header where
  values k :=
    if HeaderKey k then (fs.filter (canonicalMIMEHeaderKey ·.1 = k)).map (·.2) else []
  key_of_mem {k v} h := by
    by_contra hk
    simp [hk] at h

theorem get_ofPairs (fs : List (GoString × GoString)) {key : GoString}
    (h : HeaderKey (canonicalMIMEHeaderKey key)) :
    (ofPairs fs).get key =
      ((fs.find? (canonicalMIMEHeaderKey ·.1 = canonicalMIMEHeaderKey key)).map (·.2)).getD [] := by
  rw [get, ofPairs]
  simp only [if_pos h, List.headD_eq_head?_getD, List.head?_map, List.head?_filter]

/-- A name that cannot be in a header has no value there. -/
theorem get_of_not_headerKey (h : Header) {key : GoString}
    (hk : ¬HeaderKey (canonicalMIMEHeaderKey key)) : h.get key = [] := by
  rw [get]
  rcases e : h.values (canonicalMIMEHeaderKey key) with _ | ⟨v, vs⟩
  · rfl
  · exact absurd (h.key_of_mem (e ▸ List.mem_cons_self)) hk

/-- The values of a header come from its fields. -/
theorem exists_mem_of_mem_ofPairs {fs : List (GoString × GoString)} {k v : GoString}
    (h : v ∈ (ofPairs fs).values k) : ∃ f ∈ fs, f.2 = v := by
  simp only [ofPairs] at h
  split_ifs at h
  · obtain ⟨f, hf, rfl⟩ := List.mem_map.mp h
    exact ⟨f, List.mem_of_mem_filter hf, rfl⟩
  · cases h

end Header

/-! ## What a handler gets -/

/-- `httpguts.ValidHeaderFieldValue`: no control characters but the tab. -/
def validHeaderFieldValue (v : GoString) : Bool :=
  v.all fun b => b == ch '\t' || (0x20 ≤ b && b != 0x7f)

/-- A byte between the tokens of a value. -/
def isTokenBoundary (b : UInt8) : Bool := b == ch ' ' || b == ch ',' || b == ch '\t'

/-- A token stands in a value after a boundary or later, where `start` says that the value
    starts at a boundary. -/
def hasTokenFrom (token : GoString) : Bool → GoString → Bool
  | _, [] => false
  | start, b :: bs =>
    start && lowerASCII ((b :: bs).take token.length) == token &&
        ((b :: bs).drop token.length).head?.all isTokenBoundary ||
      hasTokenFrom token (isTokenBoundary b) bs

/-- `hasToken`, for a token in lower case. -/
def hasToken (v token : GoString) : Bool := hasTokenFrom token true v

/-- A value has all the bytes of its tokens, up to their case. -/
theorem mem_of_hasTokenFrom {token : GoString} {c : UInt8} (hc : c ∈ token) :
    ∀ {start : Bool} {v : GoString}, hasTokenFrom token start v = true → c ∈ lowerASCII v
  | _, [], h => by cases h
  | start, b :: bs, h => by
    rw [hasTokenFrom, Bool.or_eq_true, Bool.and_eq_true, Bool.and_eq_true, beq_iff_eq] at h
    rcases h with ⟨⟨-, htok⟩, -⟩ | h
    · rw [← htok] at hc
      exact List.map_subset _ (List.take_subset ..) hc
    · exact List.mem_cons_of_mem _ (mem_of_hasTokenFrom hc h)

/-- Where the body of a request of HTTP/1.1 ends. -/
inductive Header.Frames (h : Header) (body : GoString) : Prop
  /-- It comes in chunks. The fields that say so, or that disagree, are taken out. -/
  | chunked (hl : h.values (lit "Content-Length") = []) (ht : h.values (lit "Trailer") = [])
  /-- Its length is given, in digits. -/
  | length {v : GoString} (hv : h.values (lit "Content-Length") = [v])
      (hd : v ≠ [] ∧ v.all isDigit) (hn : digitsValue 10 v = body.length)
      (hlt : body.length < 2 ^ 63)
  /-- There is none. -/
  | empty (hl : h.values (lit "Content-Length") = []) (hb : body = [])

/-- The server passes a request with a header and a body on to a handler. -/
structure Header.Delivered (h : Header) (body : GoString) : Prop where
  value : ∀ {k v}, v ∈ h.values k → validHeaderFieldValue v = true
  /-- The only expectation that it can meet is `100-continue`. -/
  expect : h.get (lit "Expect") = [] ∨ hasToken (h.get (lit "Expect")) (lit "100-continue") = true
  framed : h.Frames body

namespace Header.Delivered

variable {h : Header} {body : GoString}

/-- The length of a body is given in digits, if at all. -/
theorem contentLength_digit (hd : h.Delivered body) :
    ∀ b ∈ h.get (lit "Content-Length"), isDigit b = true := by
  have hkey : canonicalMIMEHeaderKey (lit "Content-Length") = lit "Content-Length" := by decide
  rw [Header.get, hkey]
  rcases hd.framed with ⟨hl, -⟩ | ⟨hv, hdig, -, -⟩ | ⟨hl, -⟩
  · simp [hl]
  · rw [hv]
    exact List.all_eq_true.mp hdig.2
  · simp [hl]

/-- An expectation has the letters of `100-continue`. -/
theorem expect_token (hd : h.Delivered body) (hne : h.get (lit "Expect") ≠ []) :
    ∃ b ∈ h.get (lit "Expect"), lowerByte b = ch 'n' := by
  have htok := hd.expect.resolve_left hne
  exact List.mem_map.mp (mem_of_hasTokenFrom (c := ch 'n') (by decide) htok)

end Header.Delivered

/-! ## Bodies -/

/-- The body of a request: the bytes that arrive, and whether reading ends there
    without an error. -/
structure Body where
  data : GoString
  complete : Bool := true

/-- Why `io.ReadAll` of a `http.MaxBytesReader` fails. -/
inductive ReadError
  | tooLarge
  | failed
  deriving DecidableEq

/-- `io.ReadAll(http.MaxBytesReader(w, body, limit))`: the reader asks for one
    byte more than the limit, so a body that is too long is found to be so
    before the error at its end. -/
def readAll (limit : Int) (b : Body) : Except ReadError GoString :=
  if limit < b.data.length then .error .tooLarge
  else if b.complete then .ok b.data
  else .error .failed

theorem readAll_ok {limit : Int} {b : Body} {s : GoString} :
    readAll limit b = .ok s ↔ s = b.data ∧ b.complete ∧ b.data.length ≤ limit := by
  unfold readAll
  split
  · simp; omega
  · split <;> simp_all; simp [eq_comm]

end Go
