import Bluesafe.ForStd.NumberText
import Bluesafe.ForStd.Text
import Mathlib.Data.List.Nodup

/-!
# JSON values and their texts

`JSON.stringify` on values of any depth, and the equality of values that does not look at the
order in which an object lists its members.

## Key results

- `JsonValue.text_inj`: the text determines the value with the order of the members of every
  object. A value can be read off the front of a longer text (`text_append_inj`): its first
  character tells its kind, and what follows it does not continue a number.
- `JsonValue.sameMembers_iff`: objects with distinct keys are the same up to the order of
  members if and only if every key has the same value in both.
-/

/-- A JSON value; an object lists its members in some order. -/
inductive JsonValue
  | null
  | bool (b : Bool)
  | num (x : JsNumber)
  | str (s : String)
  | arr (items : List JsonValue)
  | obj (members : List (String × JsonValue))

namespace JsonValue

/-! ## Texts -/

mutual

/-- `JSON.stringify`. -/
def text : JsonValue → List Char
  | null => "null".toList
  | bool b => (if b then "true" else "false").toList
  | num x => x.text
  | str s => Text.quote s
  | arr items => Text.array (itemTexts items)
  | obj members => Text.object (memberTexts members)

/-- The texts of the items of an array. -/
def itemTexts : List JsonValue → List (List Char)
  | [] => []
  | v :: vs => text v :: itemTexts vs

/-- The keys of an object with the texts of their values. -/
def memberTexts : List (String × JsonValue) → List (String × List Char)
  | [] => []
  | (k, v) :: ms => (k, text v) :: memberTexts ms

end

/-- A property of all values, from values to the arrays and objects made of them. -/
@[elab_as_elim]
theorem induction {P : JsonValue → Prop} (null : P .null) (bool : ∀ b, P (.bool b))
    (num : ∀ x, P (.num x)) (str : ∀ s, P (.str s))
    (arr : ∀ items, (∀ v ∈ items, P v) → P (.arr items))
    (obj : ∀ members, (∀ m ∈ members, P m.2) → P (.obj members)) (v : JsonValue) : P v := by
  -- strong induction on the size, since the lists hold smaller values
  induction hn : sizeOf v using Nat.strong_induction_on generalizing v with
  | _ n ih =>
    cases v with
    | null => exact null
    | bool b => exact bool b
    | num x => exact num x
    | str s => exact str s
    -- an item of the list is smaller than the list
    | arr items =>
      refine arr items fun v hv => ih (sizeOf v) ?_ v rfl
      have hlt := List.sizeOf_lt_of_mem hv
      rw [← hn, JsonValue.arr.sizeOf_spec]
      omega
    | obj members =>
      refine obj members fun m hm => ih (sizeOf m.2) ?_ m.2 rfl
      have hlt := List.sizeOf_lt_of_mem hm
      -- so is the value of a member
      have hmember : sizeOf m = 1 + sizeOf m.1 + sizeOf m.2 := rfl
      rw [← hn, JsonValue.obj.sizeOf_spec]
      omega

/-! ## The first character of a text -/

/-- The kinds of values that the first character of a text tells apart. -/
inductive Kind
  | null
  | bool
  | num
  | str
  | arr
  | obj
  | none

/-- The kind of the values whose texts start with a character. -/
def Kind.ofChar (c : Char) : Kind :=
  if c = 'n' then null
  else if c = 't' ∨ c = 'f' then bool
  else if c = '"' then str
  else if c = '[' then arr
  else if c = '{' then obj
  else if c = ']' ∨ c = '}' then none
  else num

def kind : JsonValue → Kind
  | null => .null
  | bool _ => .bool
  | num _ => .num
  | str _ => .str
  | arr _ => .arr
  | obj _ => .obj

/-- A character of a number begins a number. -/
theorem kind_of_numberChar {c : Char} (hc : NumberText.NumberChar c) : Kind.ofChar c = .num := by
  have hne : ∀ d, ¬ NumberText.NumberChar d → c ≠ d := fun d hd h => hd (h ▸ hc)
  unfold Kind.ofChar
  simp [hne 'n' (by decide), hne 't' (by decide), hne 'f' (by decide), hne '"' (by decide),
    hne '[' (by decide), hne '{' (by decide), hne ']' (by decide), hne '}' (by decide)]

/-- A text starts with a character of the kind of its value. -/
theorem exists_text_cons (v : JsonValue) : ∃ c cs, v.text = c :: cs ∧ Kind.ofChar c = v.kind := by
  -- the first character says which kind of value follows
  cases v with
  | null => exact ⟨'n', "ull".toList, rfl, rfl⟩
  | bool b =>
    cases b with
    | true => exact ⟨'t', "rue".toList, rfl, rfl⟩
    | false => exact ⟨'f', "alse".toList, rfl, rfl⟩
  -- a number starts with a digit or a minus
  | num x =>
    obtain ⟨c, cs, hc⟩ := List.exists_cons_of_ne_nil x.text_ne_nil
    have hnum : NumberText.NumberChar c := JsNumber.numberChar_of_mem (by rw [hc]; exact .head _)
    exact ⟨c, cs, by rw [text, hc], kind_of_numberChar hnum⟩
  | str s => exact ⟨'"', s.toList.flatMap Text.escape ++ ['"'], rfl, rfl⟩
  | arr items => exact ⟨'[', _, by rw [text]; rfl, rfl⟩
  | obj members => exact ⟨'{', _, by rw [text]; rfl, rfl⟩

/-- Texts that begin alike belong to values of one kind. -/
theorem kind_eq_of_text {v w : JsonValue} {rest rest' : List Char}
    (h : v.text ++ rest = w.text ++ rest') : v.kind = w.kind := by
  obtain ⟨c, cs, hv, hc⟩ := v.exists_text_cons
  obtain ⟨d, ds, hw, hd⟩ := w.exists_text_cons
  rw [hv, hw] at h
  rw [← hc, ← hd, (List.cons.inj h).1]

/-- No value starts with a closing bracket. -/
theorem text_ne_close {v : JsonValue} {c : Char} {rest rest' : List Char} (hc : Kind.ofChar c = .none) :
    v.text ++ rest ≠ c :: rest' := by
  obtain ⟨d, ds, hv, hd⟩ := v.exists_text_cons
  rw [hv]
  intro h
  obtain rfl : d = c := (List.cons.inj h).1
  rw [hc] at hd
  cases v <;> exact Kind.noConfusion hd

/-! ## Reading values off a text -/

/-- A text that does not continue a value. -/
def Ends (rest : List Char) : Prop := ∀ c ∈ rest.head?, c = ',' ∨ c = ']' ∨ c = '}'

/-- A number ends where its text does. -/
theorem num_append_inj {x y : JsNumber} {rest rest' : List Char} (hrest : Ends rest)
    (hrest' : Ends rest') (h : x.text ++ rest = y.text ++ rest') : x = y ∧ rest = rest' := by
  have hstop : ∀ {r : List Char}, Ends r → ∀ c ∈ r.head?, decide (NumberText.NumberChar c) = false := by
    intro r hr c hc
    rcases hr c hc with rfl | rfl | rfl <;> decide
  have hchars : ∀ z : JsNumber, ∀ c ∈ z.text, decide (NumberText.NumberChar c) = true :=
    fun z c hc => decide_eq_true (JsNumber.numberChar_of_mem hc)
  obtain ⟨htake, hdrop⟩ := NumberText.span_append (hchars x) (hstop hrest)
  obtain ⟨htake', hdrop'⟩ := NumberText.span_append (hchars y) (hstop hrest')
  rw [h] at htake hdrop
  exact ⟨JsNumber.text_inj (htake.symm.trans htake'), hdrop.symm.trans hdrop'⟩

/-- Pieces with commas between them. -/
def joined (ps : List (List Char)) : List Char := (ps.intersperse [',']).flatten

/-- What follows the first piece, before `rest`. -/
def continued (ps : List (List Char)) (rest : List Char) : List Char :=
  if ps = [] then rest else ',' :: (joined ps ++ rest)

/-- The first part of a joined text, and how it goes on. -/
theorem joined_cons_append (p : List Char) (ps : List (List Char)) (rest : List Char) :
    joined (p :: ps) ++ rest = p ++ continued ps rest := by
  cases ps with
  | nil => simp [joined, continued]
  | cons q qs => simp [joined, continued]

/-- A number may stand in front of what goes on. -/
theorem ends_continued {ps : List (List Char)} {rest : List Char} (hrest : Ends rest) :
    Ends (continued ps rest) := by
  unfold continued
  split
  · exact hrest
  · intro c hc
    exact Or.inl (Option.some.inj hc).symm

/-- A list whose pieces can be read one by one can be read up to its closing bracket. -/
theorem joined_append_inj {α : Type} {piece : α → List Char} {close : Char} {xs ys : List α}
    {rest rest' : List Char} (hclose : close = ']' ∨ close = '}')
    (hread : ∀ x ∈ xs, ∀ y r r', Ends r → Ends r' → piece x ++ r = piece y ++ r' → x = y ∧ r = r')
    (hne : ∀ x r r', piece x ++ r ≠ close :: r')
    (h : joined (xs.map piece) ++ close :: rest = joined (ys.map piece) ++ close :: rest') :
    xs = ys ∧ rest = rest' := by
  have hends : ∀ r, Ends (close :: r) := by
    intro r c hc
    exact Or.inr ((Option.some.inj hc) ▸ hclose)
  induction xs generalizing ys with
  | nil =>
    cases ys with
    | nil => exact ⟨rfl, (List.cons.inj h).2⟩
    | cons y ys =>
      rw [List.map_cons, joined_cons_append] at h
      exact absurd h.symm (hne y _ _)
  | cons x xs ih =>
    cases ys with
    | nil =>
      rw [List.map_cons, joined_cons_append] at h
      exact absurd h (hne x _ _)
    | cons y ys =>
      rw [List.map_cons, List.map_cons, joined_cons_append, joined_cons_append] at h
      obtain ⟨rfl, htail⟩ :=
        hread x (.head _) y _ _ (ends_continued (hends _)) (ends_continued (hends _)) h
      -- a comma on both sides, or the closing bracket on both sides
      unfold continued at htail
      have hcomma : close ≠ ',' := by
        rcases hclose with rfl | rfl <;> decide
      by_cases hxs : xs = []
      · by_cases hys : ys = []
        · rw [if_pos (by rw [hxs]; rfl), if_pos (by rw [hys]; rfl)] at htail
          exact ⟨by rw [hxs, hys], (List.cons.inj htail).2⟩
        · rw [if_pos (by rw [hxs]; rfl), if_neg (mt List.map_eq_nil_iff.mp hys)] at htail
          exact absurd (List.cons.inj htail).1 hcomma
      · by_cases hys : ys = []
        · rw [if_neg (mt List.map_eq_nil_iff.mp hxs), if_pos (by rw [hys]; rfl)] at htail
          exact absurd (List.cons.inj htail).1.symm hcomma
        · rw [if_neg (mt List.map_eq_nil_iff.mp hxs), if_neg (mt List.map_eq_nil_iff.mp hys)] at htail
          obtain ⟨rfl, hrest⟩ := ih (fun z hz => hread z (.tail _ hz)) (List.cons.inj htail).2
          exact ⟨rfl, hrest⟩

/-- The texts of items, one by one. -/
theorem itemTexts_eq_map (vs : List JsonValue) : itemTexts vs = vs.map text := by
  induction vs with
  | nil => rfl
  | cons v vs ih => rw [itemTexts, ih, List.map_cons]

/-- One member of an object. -/
def memberText (m : String × JsonValue) : List Char := Text.quote m.1 ++ ':' :: m.2.text

/-- The texts of members, joined. -/
theorem members_memberTexts (ms : List (String × JsonValue)) :
    Text.members (memberTexts ms) = joined (ms.map memberText) := by
  induction ms with
  | nil => rfl
  | cons m ms ih =>
    cases ms with
    | nil => simp [memberTexts, Text.members, joined, memberText]
    | cons n ms =>
      have hcons := joined_cons_append (memberText m) ((n :: ms).map memberText) []
      rw [List.append_nil, continued, if_neg (by simp), List.append_nil] at hcons
      rw [List.map_cons, hcons, ← ih]
      simp [memberTexts, Text.members, memberText]

/-- The text of an array. -/
theorem text_arr (vs : List JsonValue) : (arr vs).text = '[' :: (joined (vs.map text) ++ [']']) := by
  rw [text, itemTexts_eq_map]
  rfl

/-- The text of an object. -/
theorem text_obj (ms : List (String × JsonValue)) :
    (obj ms).text = '{' :: (joined (ms.map memberText) ++ ['}']) := by
  rw [text, Text.object, members_memberTexts]

/-- A value can be read off the front of a text, if what follows does not continue it. -/
theorem text_append_inj {v w : JsonValue} {rest rest' : List Char} (hrest : Ends rest)
    (hrest' : Ends rest') (h : v.text ++ rest = w.text ++ rest') : v = w ∧ rest = rest' := by
  have hkind := kind_eq_of_text h
  induction v using induction generalizing w rest rest' with
  | null =>
    cases w with
    | null => exact ⟨rfl, List.append_cancel_left h⟩
    | _ => exact Kind.noConfusion hkind
  | bool b =>
    cases w with
    | bool b' =>
      have hhead := congrArg List.head? h
      cases b <;> cases b'
      · exact ⟨rfl, List.append_cancel_left h⟩
      · exact absurd hhead (by simp [text])
      · exact absurd hhead (by simp [text])
      · exact ⟨rfl, List.append_cancel_left h⟩
    | _ => exact Kind.noConfusion hkind
  | num x =>
    cases w with
    | num y =>
      rw [text, text] at h
      obtain ⟨hxy, hends⟩ := num_append_inj hrest hrest' h
      exact ⟨congrArg num hxy, hends⟩
    | _ => exact Kind.noConfusion hkind
  | str s =>
    cases w with
    | str s' =>
      rw [text, text] at h
      obtain ⟨hs, hends⟩ := Text.quote_append_inj h
      exact ⟨congrArg str hs, hends⟩
    | _ => exact Kind.noConfusion hkind
  | arr vs ih =>
    cases w with
    | arr ws =>
      simp only [text_arr, List.cons_append, List.append_assoc, List.nil_append, List.cons.injEq,
        true_and] at h
      obtain ⟨hitems, hends⟩ := joined_append_inj (Or.inl rfl)
        (fun v hv w r r' hr hr' heq => ih v hv hr hr' heq (kind_eq_of_text heq))
        (fun v r r' => text_ne_close rfl) h
      exact ⟨congrArg arr hitems, hends⟩
    | _ => exact Kind.noConfusion hkind
  | obj ms ih =>
    cases w with
    | obj ns =>
      simp only [text_obj, List.cons_append, List.append_assoc, List.nil_append, List.cons.injEq,
        true_and] at h
      have hread : ∀ m ∈ ms, ∀ n r r', Ends r → Ends r' → memberText m ++ r = memberText n ++ r' →
          m = n ∧ r = r' := by
        -- the key, the colon, and then the value
        intro m hm n r r' hr hr' heq
        simp only [memberText, List.append_assoc, List.cons_append] at heq
        obtain ⟨hkey, hvalue⟩ := Text.quote_append_inj heq
        rw [List.cons.injEq] at hvalue
        obtain ⟨hval, hends⟩ := ih m hm hr hr' hvalue.2 (kind_eq_of_text hvalue.2)
        exact ⟨Prod.ext hkey hval, hends⟩
      have hne : ∀ m r r', memberText m ++ r ≠ '}' :: r' := by
        intro m r r' heq
        exact absurd (List.cons.inj heq).1 (by decide)
      obtain ⟨hmembers, hends⟩ := joined_append_inj (Or.inr rfl) hread hne h
      exact ⟨congrArg obj hmembers, hends⟩
    | _ => exact Kind.noConfusion hkind

/-- The text determines the value, the order of members included. -/
theorem text_inj {v w : JsonValue} (h : v.text = w.text) : v = w := by
  have hends : Ends [] := fun c hc => absurd hc (by simp)
  exact (text_append_inj hends hends (congrArg (· ++ []) h)).1

/-! ## Equality up to the order of members -/

mutual

/-- The same value, if the order in which objects list their members does not count. -/
inductive Same : JsonValue → JsonValue → Prop
  | null : Same null null
  | bool (b : Bool) : Same (bool b) (bool b)
  | num (x : JsNumber) : Same (num x) (num x)
  | str (s : String) : Same (str s) (str s)
  | arr {vs ws : List JsonValue} : SameItems vs ws → Same (arr vs) (arr ws)
  | obj {ms ns : List (String × JsonValue)} : SameMembers ms ns → Same (obj ms) (obj ns)

/-- The items are the same, one by one. -/
inductive SameItems : List JsonValue → List JsonValue → Prop
  | nil : SameItems [] []
  | cons {v w : JsonValue} {vs ws : List JsonValue} :
    Same v w → SameItems vs ws → SameItems (v :: vs) (w :: ws)

/-- The members are the same, each found somewhere in the other object. -/
inductive SameMembers : List (String × JsonValue) → List (String × JsonValue) → Prop
  | nil : SameMembers [] []
  | cons {k : String} {v w : JsonValue} {ms ns ns' : List (String × JsonValue)} :
    Same v w → SameMembers ms ns → ns'.Perm ((k, w) :: ns) → SameMembers ((k, v) :: ms) ns'

end

theorem Same.refl (v : JsonValue) : v.Same v := by
  -- induction on the value, with an inner one on its lists
  induction v using induction with
  | null => exact .null
  | bool b => exact .bool b
  | num x => exact .num x
  | str s => exact .str s
  | arr vs ih =>
    refine .arr ?_
    induction vs with
    | nil => exact .nil
    | cons v vs ihs => exact .cons (ih v (.head _)) (ihs fun w hw => ih w (.tail _ hw))
  | obj ms ih =>
    refine .obj ?_
    induction ms with
    | nil => exact .nil
    | cons m ms ihs =>
      exact .cons (ih m (.head _)) (ihs fun n hn => ih n (.tail _ hn)) (List.Perm.refl _)

/-- `o[k]` on the members of an object; `none` stands for `undefined`. -/
def field (ms : List (String × JsonValue)) (k : String) : Option JsonValue :=
  (ms.find? fun m => decide (m.1 = k)).map Prod.snd

/-- The keys of an object. -/
def keys (ms : List (String × JsonValue)) : List String := ms.map Prod.fst

/-- The first member of a name is the one that is read. -/
theorem field_cons (k : String) (v : JsonValue) (ms : List (String × JsonValue)) (k' : String) :
    field ((k, v) :: ms) k' = if k = k' then some v else field ms k' := by
  unfold field
  rw [List.find?_cons]
  by_cases hk : k = k' <;> simp [hk]

/-- A name that no member has. -/
theorem field_eq_none_iff {ms : List (String × JsonValue)} {k : String} :
    field ms k = none ↔ k ∉ keys ms := by
  induction ms with
  | nil => simp [field, keys]
  | cons m ms ih =>
    rw [field_cons, keys, List.map_cons, List.mem_cons, not_or]
    by_cases hk : m.1 = k
    · simp [hk]
    · rw [if_neg hk, ih]
      exact ⟨fun h => ⟨Ne.symm hk, h⟩, fun h => h.2⟩

/-- Without repeated names, a member is read by its name. -/
theorem field_eq_some_iff {ms : List (String × JsonValue)} (hms : (keys ms).Nodup) {k : String}
    {v : JsonValue} : field ms k = some v ↔ (k, v) ∈ ms := by
  -- induction on the members, whose keys are distinct
  induction ms with
  | nil => simp [field]
  | cons m ms ih =>
    obtain ⟨hm, hms⟩ := List.nodup_cons.mp hms
    rw [field_cons, List.mem_cons]
    -- the first member has the key, or it is looked for in the rest
    by_cases hk : m.1 = k
    · rw [if_pos hk, Option.some.injEq]
      constructor
      · rintro rfl
        exact Or.inl (Prod.ext hk.symm rfl)
      · rintro (heq | hmem)
        · rw [← heq]
        · -- the key of the first member does not come back
          exact absurd (List.mem_map_of_mem hmem) (hk ▸ hm)
    · rw [if_neg hk, ih hms]
      constructor
      · exact Or.inr
      · rintro (heq | hmem)
        · exact absurd (congrArg Prod.fst heq).symm hk
        · exact hmem

/-- Two objects have the same members in the same order below them: each key has the same
    value. -/
theorem perm_iff_field {ms ns : List (String × JsonValue)} (hms : (keys ms).Nodup)
    (hns : (keys ns).Nodup) : ms.Perm ns ↔ ∀ k, field ms k = field ns k := by
  rw [List.perm_ext_iff_of_nodup (List.Nodup.of_map _ hms) (List.Nodup.of_map _ hns)]
  constructor
  · intro h k
    refine Option.ext fun v => ?_
    rw [field_eq_some_iff hms, field_eq_some_iff hns]
    exact h (k, v)
  · intro h m
    rw [← field_eq_some_iff hms, ← field_eq_some_iff hns, h]

/-- Two objects are the same if each key has the same value in both. -/
theorem sameMembers_iff {ms ns : List (String × JsonValue)} (hms : (keys ms).Nodup)
    (hns : (keys ns).Nodup) :
    SameMembers ms ns ↔ ∀ k, Option.Rel Same (field ms k) (field ns k) := by
  induction ms generalizing ns with
  | nil =>
    constructor
    · rintro ⟨⟩ k
      exact .none
    · intro h
      cases ns with
      | nil => exact .nil
      | cons n ns =>
        have hn := h n.1
        rw [field_cons, if_pos rfl] at hn
        cases hn
  | cons m ms ih =>
    obtain ⟨k, v⟩ := m
    obtain ⟨hm, hms⟩ := List.nodup_cons.mp hms
    constructor
    · intro h k'
      cases h with
      | @cons _ _ w _ ns' _ hvw hsame hperm =>
        have hkeys : (keys ((k, w) :: ns')).Nodup := (hperm.map Prod.fst).nodup_iff.mp hns
        rw [(perm_iff_field hns hkeys).mp hperm k', field_cons, field_cons]
        split
        · exact .some hvw
        · exact (ih hms (List.nodup_cons.mp hkeys).2).mp hsame k'
    · intro h
      have hk := h k
      rw [field_cons, if_pos rfl] at hk
      cases hw : field ns k with
      | none =>
        rw [hw] at hk
        cases hk
      | some w =>
        rw [hw] at hk
        cases hk with
        | some hvw =>
          -- put the member of the other object in front
          obtain ⟨before, after, rfl⟩ := List.append_of_mem ((field_eq_some_iff hns).mp hw)
          have hperm : (before ++ (k, w) :: after).Perm ((k, w) :: (before ++ after)) :=
            List.perm_middle
          have hkeys : (keys ((k, w) :: (before ++ after))).Nodup :=
            (hperm.map Prod.fst).nodup_iff.mp hns
          have hfield := (perm_iff_field hns hkeys).mp hperm
          refine .cons hvw ((ih hms (List.nodup_cons.mp hkeys).2).mpr fun k' => ?_) hperm
          have hk' := h k'
          rw [hfield, field_cons, field_cons] at hk'
          by_cases heq : k = k'
          · -- neither of the rests has this key
            subst heq
            rw [field_eq_none_iff.mpr hm, field_eq_none_iff.mpr (List.nodup_cons.mp hkeys).1]
            exact .none
          · rw [if_neg heq, if_neg heq] at hk'
            exact hk'

end JsonValue
