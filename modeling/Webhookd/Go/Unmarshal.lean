import Webhookd.Go.Json

/-!
# Decoding into Go values

What `json.Unmarshal` does with a JSON value, given the Go value it decodes
into: a member of an object goes to the field of its name, or else to a field
whose name is the same up to case; a repeated one goes into the same field
again; and `null` leaves a string or a struct as it was.

On an object whose member names are `Plain` each field is read from the member
of its name, in no particular order (`decodeStruct_one`, `decodeStruct_two`).
-/

namespace Go

variable {α β : Type}

/-- Into a `string`. -/
def decodeString : Json → GoString → Option GoString
  | .null, s => some s
  | .str s, _ => some s
  | _, _ => none

/-- Into a `map[string]json.RawMessage`. -/
def decodeRawMap : Json → Option (GoMap Json)
  | .null => some ∅
  | .obj ms => some (.ofList ms)
  | _ => none

/-- What is stored under a member name, among fields under theirs. -/
def structField (fields : List (GoString × β)) (name : GoString) : Option β :=
  ((fields.find? (·.1 = name)).or (fields.find? fun f => foldName f.1 = foldName name)).map (·.2)

/-- Stores a member into its field, if there is one. -/
def storeMember (fields : List (GoString × (Json → α → Option α))) (a : α)
    (m : GoString × Json) : Option α :=
  match structField fields m.1 with
  | some store => store m.2 a
  | none => some a

/-- Into a struct, given how each of its fields is stored. -/
def decodeStruct (fields : List (GoString × (Json → α → Option α))) : Json → α → Option α
  | .null, a => some a
  | .obj ms, a => ms.foldlM (storeMember fields) a
  | _, _ => none

/-! ## Plain member names -/

/-- No two members have the same name up to case, and none has one of the given
    names only up to case. -/
def Plain (names : List GoString) (ms : List (GoString × Json)) : Prop :=
  (ms.map (foldName ·.1)).Nodup ∧
    ∀ m ∈ ms, ∀ n ∈ names, foldName m.1 = foldName n → m.1 = n

instance (names : List GoString) (ms : List (GoString × Json)) : Decidable (Plain names ms) :=
  inferInstanceAs (Decidable (_ ∧ _))

namespace Plain

variable {names names' : List GoString} {m : GoString × Json} {ms : List (GoString × Json)}

theorem tail (h : Plain names (m :: ms)) : Plain names ms :=
  ⟨(List.nodup_cons.mp h.1).2, fun m hm => h.2 m (List.mem_cons_of_mem _ hm)⟩

theorem mono (h : Plain names ms) (hs : names' ⊆ names) : Plain names' ms :=
  ⟨h.1, fun m hm n hn => h.2 m hm n (hs hn)⟩

/-- Only the names matter. -/
theorem congr {ms' : List (GoString × Json)} (h : Plain names ms)
    (he : ms'.map (·.1) = ms.map (·.1)) : Plain names ms' := by
  have hfold : ∀ l : List (GoString × Json),
      l.map (foldName ·.1) = (l.map (·.1)).map foldName := by simp
  refine ⟨?_, fun m hm => ?_⟩
  · rw [hfold, he, ← hfold]
    exact h.1
  · obtain ⟨m', hm', heq⟩ := List.mem_map.mp (he ▸ List.mem_map_of_mem hm : m.1 ∈ ms.map (·.1))
    exact heq ▸ h.2 m' hm'

/-- The name of the first member does not occur again. -/
theorem ofList_head (h : Plain names (m :: ms)) : GoMap.ofList ms m.1 = none := by
  refine GoMap.ofList_of_notMem fun hm => (List.nodup_cons.mp h.1).1 ?_
  obtain ⟨m', hm', e⟩ := List.mem_map.mp hm
  exact List.mem_map.mpr ⟨m', hm', congrArg foldName e⟩

/-- A member is stored exactly where its name says. -/
theorem structField_eq {fields : List (GoString × β)} (h : Plain (fields.map (·.1)) (m :: ms)) :
    structField fields m.1 = (fields.find? (·.1 = m.1)).map (·.2) := by
  rw [structField]
  cases hf : fields.find? (·.1 = m.1) with
  | some f => rfl
  | none =>
    rw [Option.none_or, List.find?_eq_none.mpr]
    intro f hf' e
    have hn := h.2 m List.mem_cons_self f.1 (List.mem_map_of_mem hf') (of_decide_eq_true e).symm
    exact List.find?_eq_none.mp hf f hf' (decide_eq_true hn.symm)

end Plain

/-! ## Structs -/

/-- Stores what an object has under a name, if anything. -/
def storeLookup (v : Option Json) (store : Json → α → Option α) (a : α) : Option α :=
  match v with
  | some v => store v a
  | none => some a

variable {n n' : GoString} {store store' : Json → α → Option α} {ms : List (GoString × Json)}

/-- A struct with one field. -/
theorem decodeStruct_one (h : Plain [n] ms) (a : α) :
    decodeStruct [(n, store)] (.obj ms) a = storeLookup (GoMap.ofList ms n) store a := by
  show ms.foldlM _ a = _
  -- On the members: the first one is stored, or has another name; it has no namesake.
  induction ms generalizing a with
  | nil => rfl
  | cons m ms ih =>
    have hs : structField [(n, store)] m.1 = _ := Plain.structField_eq h
    rw [List.foldlM_cons, storeMember, hs, GoMap.ofList_cons]
    by_cases hn : n = m.1
    · subst hn
      simp only [List.find?_cons, decide_true, Option.map_some, h.ofList_head, Option.none_or,
        GoMap.insert_self, storeLookup, ih h.tail, Option.bind_eq_bind, Option.bind_fun_some]
    · simp only [List.find?_cons, hn, decide_false, List.find?_nil, Option.map_none,
        GoMap.insert_of_ne _ hn, GoMap.empty_apply, Option.or_none, Option.bind_eq_bind,
        Option.bind_some, ih h.tail]

/-- A struct with two fields. Storing into one does not depend on the other. -/
theorem decodeStruct_two (h : Plain [n, n'] ms) (hne : n ≠ n')
    (hc : ∀ v v' a, (store v a).bind (store' v') = (store' v' a).bind (store v)) (a : α) :
    decodeStruct [(n, store), (n', store')] (.obj ms) a =
      (storeLookup (GoMap.ofList ms n) store a).bind
        (storeLookup (GoMap.ofList ms n') store') := by
  show ms.foldlM _ a = _
  induction ms generalizing a with
  | nil => rfl
  | cons m ms ih =>
    have hs : structField [(n, store), (n', store')] m.1 = _ := Plain.structField_eq h
    rw [List.foldlM_cons, storeMember, hs, GoMap.ofList_cons, GoMap.ofList_cons]
    by_cases hn : n = m.1
    · subst hn
      simp only [List.find?_cons, decide_true, Option.map_some, h.ofList_head, Option.none_or,
        GoMap.insert_self, GoMap.insert_of_ne _ hne.symm, GoMap.empty_apply, Option.or_none,
        storeLookup, ih h.tail, Option.bind_eq_bind, Option.bind_some]
      rfl
    · by_cases hn' : n' = m.1
      · subst hn'
        simp only [List.find?_cons, decide_true, hn, decide_false, Option.map_some, h.ofList_head,
          Option.none_or, GoMap.insert_self, GoMap.insert_of_ne _ hne, GoMap.empty_apply,
          Option.or_none, ih h.tail, Option.bind_eq_bind]
        -- The second field comes first here, so the stores have to be swapped.
        cases GoMap.ofList ms n with
        | none =>
          simp only [storeLookup, Option.bind_some, Option.bind_fun_some]
        | some v =>
          simp only [storeLookup, Option.bind_fun_some]
          exact (hc v m.2 a).symm
      · simp only [List.find?_cons, hn, hn', decide_false, List.find?_nil, Option.map_none,
          GoMap.insert_of_ne _ hn, GoMap.insert_of_ne _ hn', GoMap.empty_apply, Option.or_none,
          Option.bind_eq_bind, Option.bind_some, ih h.tail]

/-! ## What decoding keeps -/

/-- A member is stored into a field of its name, at least up to case. -/
theorem structField_mem {fields : List (GoString × β)} {name : GoString} {b : β}
    (h : structField fields name = some b) :
    ∃ f ∈ fields, f.2 = b ∧ foldName f.1 = foldName name := by
  obtain ⟨f, hf, rfl⟩ := Option.map_eq_some_iff.mp h
  rcases Option.or_eq_some_iff.mp hf with hf | ⟨-, hf⟩
  · have hn : f.1 = name := by simpa using List.find?_some hf
    exact ⟨f, List.mem_of_find?_eq_some hf, rfl, hn ▸ rfl⟩
  · have hn : foldName f.1 = foldName name := by simpa using List.find?_some hf
    exact ⟨f, List.mem_of_find?_eq_some hf, rfl, hn⟩

/-- A member is left out only if no field has its name. -/
theorem structField_eq_none {fields : List (GoString × β)} {name : GoString}
    (h : structField fields name = none) : ∀ f ∈ fields, foldName f.1 ≠ foldName name := by
  intro f hf he
  obtain ⟨-, hnone⟩ := Option.or_eq_none_iff.mp (Option.map_eq_none_iff.mp h)
  exact List.find?_eq_none.mp hnone f hf (decide_eq_true he)

/-- What all fields keep when they store a value, the struct keeps. -/
theorem decodeStruct_keeps {fields : List (GoString × (Json → α → Option α))} {P : α → Prop}
    (hf : ∀ f ∈ fields, ∀ v a a', Json.Wf v → P a → f.2 v a = some a' → P a') {v : Json} {a a' : α}
    (hv : v.Wf) (ha : P a) (h : decodeStruct fields v a = some a') : P a' := by
  cases hv with
  | null => exact Option.some.inj h ▸ ha
  | obj hns hms =>
    rename_i ms
    clear hns
    change ms.foldlM _ a = some a' at h
    induction ms generalizing a with
    | nil => exact Option.some.inj h ▸ ha
    | cons m ms ih =>
      rw [List.foldlM_cons] at h
      obtain ⟨a₁, h₁, h⟩ := Option.bind_eq_some_iff.mp h
      refine ih ?_ (fun m hm => hms m (List.mem_cons_of_mem _ hm)) h
      unfold storeMember at h₁
      split at h₁
      · obtain ⟨f, hm, rfl, -⟩ := structField_mem ‹_›
        exact hf f hm _ _ _ (hms m List.mem_cons_self) ha h₁
      · exact Option.some.inj h₁ ▸ ha
  | _ => cases h

/-! ## Members up to case -/

/-- What an object has under a name up to case, in order. -/
def foldMembers (n : GoString) : Json → List Json
  | .obj ms => ms.flatMap fun m => if foldName m.1 = foldName n then [m.2] else []
  | _ => []

/-- What a value has under a path of names up to case, in order. -/
def foldPath : List GoString → Json → List Json
  | [], v => [v]
  | n :: ns, v => (foldMembers n v).flatMap (foldPath ns)

/-- The text of a string. -/
def Json.text : Json → Option GoString
  | .str s => some s
  | _ => none

/-- The last text among some values. -/
def lastText (vs : List Json) : Option GoString := (vs.filterMap Json.text).getLast?

/-- If each step of a fold acts on a part of the state as a fold over some items does, the
    whole fold acts on that part as a fold over all those items. -/
theorem foldlM_flatMap {ι κ : Type} {f : α → ι → Option α} {d : β → κ → Option β} {get : α → β}
    {g : ι → List κ} (hstep : ∀ i a a', f a i = some a' → (g i).foldlM d (get a) = some (get a'))
    {is : List ι} {a a' : α} (h : is.foldlM f a = some a') :
    (is.flatMap g).foldlM d (get a) = some (get a') := by
  induction is generalizing a with
  | nil => exact congrArg (some <| get ·) (Option.some.inj h)
  | cons i is ih =>
    rw [List.foldlM_cons] at h
    obtain ⟨a₁, h₁, h⟩ := Option.bind_eq_some_iff.mp h
    rw [List.flatMap_cons, List.foldlM_append, hstep i a a₁ h₁]
    exact ih h

/-- A field of a struct is decoded from the members of its name up to case, one after the
    other, and from no others. -/
theorem decodeStruct_field {fields : List (GoString × (Json → α → Option α))} {get : α → β}
    {dec : Json → β → Option β} (hn : n ∈ fields.map (·.1))
    (hsame : ∀ f ∈ fields, foldName f.1 = foldName n →
      ∀ v a a', f.2 v a = some a' → dec v (get a) = some (get a'))
    (hother : ∀ f ∈ fields, foldName f.1 ≠ foldName n →
      ∀ v a a', f.2 v a = some a' → get a' = get a)
    {v : Json} {a a' : α} (h : decodeStruct fields v a = some a') :
    (foldMembers n v).foldlM (fun b v => dec v b) (get a) = some (get a') := by
  cases v with
  | null => exact congrArg (some <| get ·) (Option.some.inj h)
  | obj ms =>
    refine foldlM_flatMap (fun m a a' hm => ?_) h
    unfold storeMember at hm
    split at hm
    · obtain ⟨f, hf, rfl, hname⟩ := structField_mem ‹_›
      by_cases he : foldName m.1 = foldName n
      · rw [if_pos he, List.foldlM_cons, hsame f hf (hname.trans he) _ _ _ hm]
        rfl
      · rw [if_neg he, ← hother f hf (hname ▸ he) _ _ _ hm]
        rfl
    · obtain ⟨f, hf, rfl⟩ := List.mem_map.mp hn
      rw [if_neg fun he => structField_eq_none ‹_› f hf he.symm, Option.some.inj hm]
      rfl
  | _ => cases h

/-- Of strings stored one after the other the last one stays. -/
theorem foldlM_decodeString {vs : List Json} {s s' : GoString}
    (h : vs.foldlM (fun s v => decodeString v s) s = some s') : s' = (lastText vs).getD s := by
  induction vs generalizing s with
  | nil => exact (Option.some.inj h).symm
  | cons v vs ih =>
    rw [List.foldlM_cons] at h
    obtain ⟨s₁, h₁, h⟩ := Option.bind_eq_some_iff.mp h
    rw [ih h]
    cases v with
    | null =>
      obtain rfl := Option.some.inj h₁
      rfl
    | str t =>
      obtain rfl := Option.some.inj h₁
      have ht : (Json.str t).text = some t := rfl
      rw [lastText, lastText, List.filterMap_cons_some ht, List.getLast?_cons, Option.getD_some]
    | _ => cases h₁

/-- Of values that replace each other the last one stays. -/
theorem foldlM_replace {f : Json → Option β} {vs : List Json} {b b' : β}
    (h : vs.foldlM (fun _ v => f v) b = some b') : vs.getLast?.elim (some b) f = some b' := by
  induction vs generalizing b with
  | nil => exact h
  | cons v vs ih =>
    rw [List.foldlM_cons] at h
    obtain ⟨b₁, h₁, h⟩ := Option.bind_eq_some_iff.mp h
    rw [List.getLast?_cons, ← ih h]
    cases vs.getLast? with
    | none => exact h₁
    | some w => rfl

theorem foldPath_pair (n n' : GoString) (v : Json) :
    foldPath [n, n'] v = (foldMembers n v).flatMap (foldMembers n') := by
  simp only [foldPath, List.flatMap_singleton']

end Go
