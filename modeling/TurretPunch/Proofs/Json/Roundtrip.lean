import TurretPunch.Proofs.Json.Double
import TurretPunch.Proofs.Json.Quotation

namespace TurretPunch.Json

/-!
# Documents that are read again

A document is written with each item and member on a line of its own. It is read as it was if it has
nothing in it that JSON cannot tell: no whole number that is too long, no number that is none, no half
of a surrogate pair, and no name twice in an object.
-/

/-- The values that are read as they are written. -/
inductive IsRegular : Json → Prop
  | null : IsRegular .null
  | bool (b : Bool) : IsRegular (.bool b)
  | int {n : Int} (h : Decimal.digitCount n.natAbs ≤ Text.maxDigits) : IsRegular (.int n)
  | float {x : Float} (h : x.isNaN = false) : IsRegular (.float x)
  | string (s : String) : IsRegular (.string (.ofString s))
  | array {items : List Json} (h : ∀ item ∈ items, IsRegular item) : IsRegular (.array items)
  | object {members : List (Text.Points × Json)} (hnames : ∀ m ∈ members, ∃ s : String, m.1 = .ofString s)
      (hdistinct : (members.map (·.1)).Nodup) (h : ∀ m ∈ members, IsRegular m.2) :
      IsRegular (.object members)

variable {value item : Json} {items done : List Json} {name : Text.Points}
  {members : List (Text.Points × Json)} {cs rest after : List Char} {depth fuel nest : Nat}

/-- The characters of a value at a depth. -/
def chars (depth : Nat) (value : Json) : List Char :=
  (pieces .indented depth value).flatMap String.toList

def breakChars (depth : Nat) : List Char := '\n' :: List.replicate (2 * depth) ' '

def nameChars (name : Text.Points) : List Char := '"' :: (name.toList.flatMap stringPoint ++ ['"'])

/-- The characters of the items after the first. -/
def itemsChars (depth : Nat) (items : List Json) : List Char :=
  items.flatMap fun item => ',' :: (breakChars (depth + 1) ++ chars (depth + 1) item)

def memberChars (depth : Nat) (member : Text.Points × Json) : List Char :=
  nameChars member.1 ++ (':' :: ' ' :: chars (depth + 1) member.2)

/-- The characters of the members after the first. -/
def membersChars (depth : Nat) (members : List (Text.Points × Json)) : List Char :=
  members.flatMap fun member => ',' :: (breakChars (depth + 1) ++ memberChars depth member)

theorem itemsChars_cons (depth : Nat) (item : Json) (items : List Json) :
    itemsChars depth (item :: items) =
      ',' :: (breakChars (depth + 1) ++ (chars (depth + 1) item ++ itemsChars depth items)) := by
  rw [itemsChars, List.flatMap_cons, List.cons_append, List.append_assoc]
  rfl

theorem membersChars_cons (depth : Nat) (member : Text.Points × Json)
    (members : List (Text.Points × Json)) :
    membersChars depth (member :: members) =
      ',' :: (breakChars (depth + 1) ++ (memberChars depth member ++ membersChars depth members)) := by
  rw [membersChars, List.flatMap_cons, List.cons_append, List.append_assoc]
  rfl

theorem toList_write (value : Json) : (value.write .indented).toList = chars 0 value := by
  rw [write, chars, String.toList_join]

theorem toList_lineBreak (depth : Nat) :
    (Spacing.indented.lineBreak depth).toList = breakChars depth := String.toList_ofList

theorem toList_stringText (name : Text.Points) : (stringText name).toList = nameChars name := by
  rw [stringText, String.toList_ofList]
  rfl

theorem itemPieces_chars (depth : Nat) (items : List Json) :
    (itemPieces .indented depth items).flatMap String.toList = itemsChars depth items := by
  induction items with
  | nil => rw [itemPieces]; rfl
  | cons item items ih =>
      rw [itemPieces, List.flatMap_append, ih, List.flatMap_cons, List.flatMap_cons, toList_lineBreak]
      rfl

theorem memberPieces_chars (depth : Nat) (member : Text.Points × Json) :
    (memberPieces .indented depth member).flatMap String.toList = memberChars depth member := by
  rw [memberPieces, List.flatMap_cons, List.flatMap_cons, toList_stringText]
  rfl

theorem membersPieces_chars (depth : Nat) (members : List (Text.Points × Json)) :
    (membersPieces .indented depth members).flatMap String.toList = membersChars depth members := by
  induction members with
  | nil => rw [membersPieces]; rfl
  | cons member members ih =>
      rw [membersPieces, List.flatMap_append, ih, List.flatMap_cons, List.flatMap_cons, toList_lineBreak,
        memberPieces_chars]
      rfl

theorem chars_array_cons (depth : Nat) (item : Json) (items : List Json) :
    chars depth (.array (item :: items)) = '[' :: (breakChars (depth + 1) ++
      (chars (depth + 1) item ++ (itemsChars depth items ++ (breakChars depth ++ [']'])))) := by
  rw [chars, pieces, List.flatMap_append, List.flatMap_append, itemPieces_chars, List.flatMap_cons,
    List.flatMap_cons, List.flatMap_cons, toList_lineBreak, toList_lineBreak, chars,
    List.append_assoc, List.append_assoc]
  rfl

theorem chars_object_cons (depth : Nat) (member : Text.Points × Json)
    (members : List (Text.Points × Json)) :
    chars depth (.object (member :: members)) = '{' :: (breakChars (depth + 1) ++
      (memberChars depth member ++ (membersChars depth members ++ (breakChars depth ++ ['}'])))) := by
  rw [chars, pieces, List.flatMap_append, List.flatMap_append, membersPieces_chars, List.flatMap_cons,
    List.flatMap_cons, List.flatMap_cons, memberPieces_chars, toList_lineBreak, toList_lineBreak,
    List.append_assoc, List.append_assoc]
  rfl

/-! ## Steps of the reader -/

theorem readValue_array (h : skipBlanks rest = cs) (hcs : cs.head? ≠ some ']') :
    readValue (fuel + 1) (nest + 1) ('[' :: rest) = readItems fuel nest [] cs := by
  rw [readValue.eq_def]
  simp only [h]
  split
  · next hzero => cases hzero
  · exact absurd rfl hcs
  · next hsucc _ =>
    cases hsucc
    rfl

theorem readValue_emptyArray (h : skipBlanks rest = ']' :: after) :
    readValue (fuel + 1) (nest + 1) ('[' :: rest) = .ok (.array [], after) := by
  rw [readValue.eq_def]
  simp only [h]

theorem readItems_last (h : readValue fuel nest cs = .ok (value, rest))
    (hrest : skipBlanks rest = ']' :: after) :
    readItems (fuel + 1) nest done cs = .ok (.array (value :: done).reverse, after) := by
  rw [readItems, h]
  simp only [hrest]

theorem readItems_next (h : readValue fuel nest cs = .ok (value, rest))
    (hrest : skipBlanks rest = ',' :: after) :
    readItems (fuel + 1) nest done cs = readItems fuel nest (value :: done) (skipBlanks after) := by
  rw [readItems, h]
  simp only [hrest]

theorem readValue_object (h : skipBlanks rest = cs) (hcs : cs.head? ≠ some '}') :
    readValue (fuel + 1) (nest + 1) ('{' :: rest) = readMembers fuel nest [] cs := by
  rw [readValue.eq_def]
  simp only [h]
  split
  · next hzero => cases hzero
  · exact absurd rfl hcs
  · next hsucc _ =>
    cases hsucc
    rfl

theorem readValue_emptyObject (h : skipBlanks rest = '}' :: after) :
    readValue (fuel + 1) (nest + 1) ('{' :: rest) = .ok (.object [], after) := by
  rw [readValue.eq_def]
  simp only [h]

theorem readMembers_last {inner colon : List Char} (hname : readString cs = .ok (name, inner))
    (hcolon : skipBlanks inner = ':' :: colon) (h : readValue fuel nest (skipBlanks colon) = .ok (value, rest))
    (hrest : skipBlanks rest = '}' :: after) :
    readMembers (fuel + 1) nest members ('"' :: cs) =
      .ok (.object (putMember name value members), after) := by
  rw [readMembers, hname]
  simp only [hcolon, h, hrest]

theorem readMembers_next {inner colon : List Char} (hname : readString cs = .ok (name, inner))
    (hcolon : skipBlanks inner = ':' :: colon) (h : readValue fuel nest (skipBlanks colon) = .ok (value, rest))
    (hrest : skipBlanks rest = ',' :: after) :
    readMembers (fuel + 1) nest members ('"' :: cs) =
      readMembers fuel nest (putMember name value members) (skipBlanks after) := by
  rw [readMembers, hname]
  simp only [hcolon, h, hrest]

theorem skipBlanks_of_not_blank {c : Char} (hc : isJsonBlank c = false) (cs : List Char) :
    skipBlanks (c :: cs) = c :: cs := by
  rw [skipBlanks, List.dropWhile_cons_of_neg (by rw [hc]; exact Bool.false_ne_true)]

theorem skipBlanks_breakChars (depth : Nat) (cs : List Char) :
    skipBlanks (breakChars depth ++ cs) = skipBlanks cs := by
  have hblank : ∀ c ∈ breakChars depth, isJsonBlank c = true := by
    intro c hc
    rcases List.mem_cons.mp hc with rfl | hc
    · rfl
    · rw [List.eq_of_mem_replicate hc]
      rfl
  rw [skipBlanks, List.dropWhile_append_of_pos hblank, skipBlanks]

theorem endsValue_breakChars (depth : Nat) (cs : List Char) : EndsValue (breakChars depth ++ cs) :=
  endsValue_newline _

/-- The characters with which no value starts. -/
def isForeign (c : Char) : Bool := isJsonBlank c || c == ']' || c == '\uFEFF'

/-- The characters with which neither a number nor a word starts. -/
def isMark (c : Char) : Bool := isForeign c || c == '"' || c == '{' || c == '['

theorem exists_of_readScalar {r : Json × List Char} (h : readScalar cs = .ok r) :
    ∃ c rest, cs = c :: rest ∧ isMark c = false := by
  cases cs with
  | nil => cases h
  | cons c rest =>
      refine ⟨c, rest, rfl, ?_⟩
      by_contra hmark
      rw [Bool.not_eq_false] at hmark
      simp only [isMark, isForeign, isJsonBlank, Bool.or_eq_true, beq_iff_eq, or_assoc] at hmark
      rcases hmark with rfl | rfl | rfl | rfl | rfl | rfl | rfl | rfl | rfl <;> cases h

theorem readValue_scalar {c : Char} (hc : isMark c = false) (fuel nest : Nat) (cs : List Char) :
    readValue (fuel + 1) nest (c :: cs) = readScalar (c :: cs) := by
  have hne {d : Char} (hd : isMark d = true) (rest : List Char) : c :: cs ≠ d :: rest := by
    intro heq
    obtain rfl := (List.cons.inj heq).1
    cases hc.symm.trans hd
  rw [readValue]
  · exact hne rfl
  · exact hne rfl
  · exact hne rfl

/-- A value is read behind its first character, wherever its text stands. -/
structure Reads (value : Json) : Prop where
  starts (depth : Nat) : ∃ c cs, chars depth value = c :: cs ∧ isForeign c = false
  reads {depth fuel nest : Nat} {rest : List Char} (hnest : value.reach ≤ 2 * nest)
    (hfuel : (chars depth value).length ≤ fuel) (hrest : EndsValue rest) :
    readValue fuel nest (chars depth value ++ rest) = .ok (value, rest)

theorem not_blank_of_foreign {c : Char} (h : isForeign c = false) : isJsonBlank c = false := by
  cases hblank : isJsonBlank c with
  | false => rfl
  | true =>
      rw [isForeign, hblank] at h
      cases h

theorem Reads.skipBlanks (h : Reads value) (depth : Nat) (cs : List Char) :
    skipBlanks (chars depth value ++ cs) = chars depth value ++ cs := by
  obtain ⟨c, cs', hchars, hforeign⟩ := h.starts depth
  rw [hchars, List.cons_append, skipBlanks_of_not_blank (not_blank_of_foreign hforeign)]

theorem isForeign_of_isMark {c : Char} (h : isMark c = false) : isForeign c = false := by
  cases hforeign : isForeign c with
  | false => rfl
  | true =>
      rw [isMark, hforeign] at h
      cases h

/-- What is read as a scalar is read as a value. -/
theorem reads_of_readScalar {text : List Char} (hchars : ∀ depth, chars depth value = text)
    (h : ∀ rest, EndsValue rest → readScalar (text ++ rest) = .ok (value, rest)) : Reads value := by
  obtain ⟨c, cs, hcs, hmark⟩ := exists_of_readScalar (h [] endsValue_nil)
  rw [List.append_nil] at hcs
  refine ⟨fun depth => ⟨c, cs, (hchars depth).trans hcs, isForeign_of_isMark hmark⟩,
    fun {depth fuel nest rest} _ hfuel hrest => ?_⟩
  · have hread := h rest hrest
    rw [hchars, hcs] at hfuel
    rw [hcs] at hread
    obtain ⟨k, rfl⟩ := Nat.exists_eq_succ_of_ne_zero (Nat.pos_iff_ne_zero.mp
      (lt_of_lt_of_le (Nat.succ_pos cs.length) hfuel))
    rw [hchars, hcs, List.cons_append, readValue_scalar hmark]
    exact hread

theorem reads_string (s : String) : Reads (.string (.ofString s)) := by
  have hpoints : (Text.Points.ofString s).toList.flatMap stringPoint = s.toList.flatMap stringChar := by
    rw [Text.Points.ofString, Text.Points.ofChars, List.flatMap_map]
    rfl
  have hchars (depth : Nat) : chars depth (.string (.ofString s)) =
      '"' :: (s.toList.flatMap stringChar ++ ['"']) := by
    rw [chars, pieces, List.flatMap_singleton, toList_stringText, nameChars, hpoints]
  refine ⟨fun depth => ⟨'"', _, hchars depth, by decide⟩, fun {depth fuel nest rest} _ hfuel _ => ?_⟩
  rw [hchars] at hfuel ⊢
  obtain ⟨k, rfl⟩ := Nat.exists_eq_succ_of_ne_zero (Nat.pos_iff_ne_zero.mp
    (lt_of_lt_of_le (Nat.succ_pos _) hfuel))
  rw [List.cons_append, List.append_assoc, readValue, List.singleton_append, readString_stringText]
  rfl

theorem reach_le_itemsReach (h : item ∈ items) : item.reach ≤ itemsReach items := by
  induction items with
  | nil => cases h
  | cons first items ih =>
      rw [itemsReach]
      rcases List.mem_cons.mp h with rfl | h
      · exact Nat.le_max_left _ _
      · exact (ih h).trans (Nat.le_max_right _ _)

/-- The items of an array are read one after the other, up to the bracket. -/
theorem readItems_chars {first : Json} (hitems : ∀ item ∈ first :: items, Reads item)
    (hnest : itemsReach (first :: items) ≤ 2 * nest)
    (hfuel : (chars (depth + 1) first ++ itemsChars depth items).length < fuel) (done : List Json)
    (rest : List Char) :
    readItems fuel nest done (chars (depth + 1) first ++
        (itemsChars depth items ++ (breakChars depth ++ ']' :: rest))) =
      .ok (.array (done.reverse ++ first :: items), rest) := by
  -- by induction along the items, each of which takes some of the text and one unit of fuel
  induction items generalizing first fuel done with
  | nil =>
      obtain ⟨k, rfl⟩ := Nat.exists_eq_succ_of_ne_zero (Nat.ne_zero_of_lt hfuel)
      rw [itemsChars, List.flatMap_nil, List.append_nil] at hfuel
      have hread := (hitems first List.mem_cons_self).reads
        ((reach_le_itemsReach List.mem_cons_self).trans hnest) (Nat.lt_succ_iff.mp hfuel)
        (endsValue_breakChars depth (']' :: rest))
      have hlast : skipBlanks (breakChars depth ++ ']' :: rest) = ']' :: rest := by
        rw [skipBlanks_breakChars, skipBlanks_of_not_blank rfl]
      rw [itemsChars, List.flatMap_nil, List.nil_append, readItems_last hread hlast, List.reverse_cons]
  | cons next items ih =>
      obtain ⟨k, rfl⟩ := Nat.exists_eq_succ_of_ne_zero (Nat.ne_zero_of_lt hfuel)
      have hnext := hitems next (List.mem_cons_of_mem _ List.mem_cons_self)
      rw [itemsChars_cons, List.length_append, List.length_cons, List.length_append] at hfuel
      have hmax : max first.reach (itemsReach (next :: items)) ≤ 2 * nest := hnest
      rw [itemsChars_cons, List.cons_append, List.append_assoc, List.append_assoc]
      have hread := (hitems first List.mem_cons_self).reads ((Nat.le_max_left _ _).trans hmax)
        (show (chars (depth + 1) first).length ≤ k by omega) (endsValue_comma
          (breakChars (depth + 1) ++ (chars (depth + 1) next ++
            (itemsChars depth items ++ (breakChars depth ++ ']' :: rest)))))
      rw [readItems_next hread (skipBlanks_of_not_blank rfl _), skipBlanks_breakChars,
        hnext.skipBlanks, ih (fun item hitem => hitems item (List.mem_cons_of_mem _ hitem))
          ((Nat.le_max_right _ _).trans hmax) (by omega), List.reverse_cons, List.append_assoc]
      rfl

theorem reads_array (h : ∀ item ∈ items, Reads item) : Reads (.array items) := by
  cases items with
  | nil =>
      have hchars (depth : Nat) : chars depth (.array []) = ['[', ']'] := by
        rw [chars, pieces]
        rfl
      refine ⟨fun depth => ⟨'[', _, hchars depth, by decide⟩,
        fun {depth fuel nest rest} hnest hfuel _ => ?_⟩
      rw [hchars] at hfuel ⊢
      obtain ⟨k, rfl⟩ := Nat.exists_eq_succ_of_ne_zero (Nat.ne_zero_of_lt hfuel)
      rw [reach, itemsReach] at hnest
      obtain ⟨l, rfl⟩ := Nat.exists_eq_succ_of_ne_zero (show nest ≠ 0 by omega)
      exact readValue_emptyArray (skipBlanks_of_not_blank rfl rest)
  | cons first items =>
      refine ⟨fun depth => ⟨'[', _, chars_array_cons depth first items, by decide⟩,
        fun {depth fuel nest rest} hnest hfuel _ => ?_⟩
      rw [chars_array_cons] at hfuel ⊢
      obtain ⟨k, rfl⟩ := Nat.exists_eq_succ_of_ne_zero (Nat.ne_zero_of_lt hfuel)
      rw [reach] at hnest
      obtain ⟨l, rfl⟩ := Nat.exists_eq_succ_of_ne_zero (show nest ≠ 0 by omega)
      simp only [List.length_cons, List.length_append] at hfuel
      have hfirst := h first List.mem_cons_self
      obtain ⟨c, cs, hchars, hforeign⟩ := hfirst.starts (depth + 1)
      have hskip : skipBlanks (breakChars (depth + 1) ++ (chars (depth + 1) first ++
          (itemsChars depth items ++ (breakChars depth ++ ']' :: rest)))) =
          chars (depth + 1) first ++ (itemsChars depth items ++ (breakChars depth ++ ']' :: rest)) := by
        rw [skipBlanks_breakChars, hfirst.skipBlanks]
      have hhead : (chars (depth + 1) first ++
          (itemsChars depth items ++ (breakChars depth ++ ']' :: rest))).head? ≠ some ']' := by
        rw [hchars, List.cons_append, List.head?_cons, Ne, Option.some.injEq]
        rintro rfl
        cases hforeign
      rw [List.cons_append, List.append_assoc, List.append_assoc, List.append_assoc, List.append_assoc,
        List.singleton_append, readValue_array hskip hhead, readItems_chars h (by omega)
          (by rw [List.length_append]; omega)]
      rfl

theorem reach_le_membersReach {member : Text.Points × Json} (h : member ∈ members) :
    member.2.reach ≤ membersReach members := by
  induction members with
  | nil => cases h
  | cons first members ih =>
      rw [membersReach]
      rcases List.mem_cons.mp h with rfl | h
      · exact (Nat.le_max_right 3 _).trans (Nat.le_max_left _ _)
      · exact (ih h).trans (Nat.le_max_right _ _)

theorem putMember_of_not_mem (h : name ∉ members.map (·.1)) :
    putMember name value members = members ++ [(name, value)] := by
  induction members with
  | nil => rfl
  | cons first members ih =>
      rw [List.map_cons, List.mem_cons, not_or] at h
      rw [putMember, if_neg (Ne.symm h.1), ih h.2]
      rfl

theorem not_mem_of_nodup {first : Text.Points × Json} {done : List (Text.Points × Json)}
    (h : ((done ++ first :: members).map (·.1)).Nodup) : first.1 ∉ done.map (·.1) := by
  rw [List.map_append, List.map_cons, List.nodup_append] at h
  intro hmem
  exact h.2.2 first.1 hmem first.1 List.mem_cons_self rfl

theorem nameChars_ofString (s : String) :
    nameChars (.ofString s) = '"' :: (s.toList.flatMap stringChar ++ ['"']) := by
  rw [nameChars, Text.Points.ofString, Text.Points.ofChars, List.flatMap_map]
  rfl

/-- A name and its value are read, whatever comes next. -/
theorem memberChars_parts {first : Text.Points × Json} (hname : ∃ s : String, first.1 = .ofString s)
    (hfirst : Reads first.2) (hnest : first.2.reach ≤ 2 * nest)
    (hfuel : (memberChars depth first).length ≤ fuel) (hrest : EndsValue rest) :
    ∃ quoted inner colon, memberChars depth first ++ rest = '"' :: quoted ∧
      readString quoted = .ok (first.1, inner) ∧ skipBlanks inner = ':' :: colon ∧
      readValue fuel nest (skipBlanks colon) = .ok (first.2, rest) := by
  obtain ⟨name, value⟩ := first
  obtain ⟨s, rfl⟩ := hname
  have hblank : skipBlanks (' ' :: (chars (depth + 1) value ++ rest)) = chars (depth + 1) value ++ rest :=
    hfirst.skipBlanks (depth + 1) rest
  refine ⟨s.toList.flatMap stringChar ++ '"' :: (':' :: ' ' :: (chars (depth + 1) value ++ rest)),
    ':' :: ' ' :: (chars (depth + 1) value ++ rest), ' ' :: (chars (depth + 1) value ++ rest), ?_,
    readString_stringText s _, skipBlanks_of_not_blank rfl _, ?_⟩
  · rw [memberChars, nameChars_ofString]
    simp
  · rw [hblank]
    refine hfirst.reads hnest (le_trans ?_ hfuel) hrest
    rw [memberChars, List.length_append, List.length_cons, List.length_cons]
    omega

theorem readMembers_chars (done : List (Text.Points × Json)) {first : Text.Points × Json}
    (hmembers : ∀ m ∈ first :: members, Reads m.2)
    (hnames : ∀ m ∈ first :: members, ∃ s : String, m.1 = .ofString s)
    (hdistinct : ((done ++ first :: members).map (·.1)).Nodup)
    (hnest : membersReach (first :: members) ≤ 2 * nest)
    (hfuel : (memberChars depth first ++ membersChars depth members).length < fuel)
    (rest : List Char) :
    readMembers fuel nest done (memberChars depth first ++
        (membersChars depth members ++ (breakChars depth ++ '}' :: rest))) =
      .ok (.object (done ++ first :: members), rest) := by
  induction members generalizing first fuel done with
  | nil =>
      obtain ⟨k, rfl⟩ := Nat.exists_eq_succ_of_ne_zero (Nat.ne_zero_of_lt hfuel)
      rw [membersChars, List.flatMap_nil, List.append_nil] at hfuel
      obtain ⟨quoted, inner, colon, htext, hname, hcolon, hread⟩ := memberChars_parts
        (hnames first List.mem_cons_self) (hmembers first List.mem_cons_self)
        ((reach_le_membersReach List.mem_cons_self).trans hnest) (Nat.lt_succ_iff.mp hfuel)
        (endsValue_breakChars depth ('}' :: rest))
      have hlast : skipBlanks (breakChars depth ++ '}' :: rest) = '}' :: rest := by
        rw [skipBlanks_breakChars, skipBlanks_of_not_blank rfl]
      have hfresh := not_mem_of_nodup hdistinct
      rw [membersChars, List.flatMap_nil, List.nil_append, htext,
        readMembers_last hname hcolon hread hlast, putMember_of_not_mem hfresh]
  | cons next members ih =>
      obtain ⟨k, rfl⟩ := Nat.exists_eq_succ_of_ne_zero (Nat.ne_zero_of_lt hfuel)
      rw [membersChars_cons, List.length_append, List.length_cons, List.length_append] at hfuel
      have hmax : max (max 3 first.2.reach) (membersReach (next :: members)) ≤ 2 * nest := hnest
      obtain ⟨quoted, inner, colon, htext, hname, hcolon, hread⟩ := memberChars_parts
        (hnames first List.mem_cons_self) (hmembers first List.mem_cons_self)
        (((Nat.le_max_right 3 _).trans (Nat.le_max_left _ _)).trans hmax)
        (show (memberChars depth first).length ≤ k by omega) (endsValue_comma
          (breakChars (depth + 1) ++ (memberChars depth next ++
            (membersChars depth members ++ (breakChars depth ++ '}' :: rest)))))
      have hfresh := not_mem_of_nodup hdistinct
      have hquote : skipBlanks (memberChars depth next ++
          (membersChars depth members ++ (breakChars depth ++ '}' :: rest))) =
          memberChars depth next ++ (membersChars depth members ++ (breakChars depth ++ '}' :: rest)) :=
        skipBlanks_of_not_blank rfl _
      have happend : done ++ [(first.1, first.2)] ++ next :: members = done ++ first :: next :: members := by
        rw [List.append_assoc]
        rfl
      rw [membersChars_cons, List.cons_append, List.append_assoc, List.append_assoc, htext,
        readMembers_next hname hcolon hread (skipBlanks_of_not_blank rfl _), skipBlanks_breakChars,
        hquote, putMember_of_not_mem hfresh,
        ih _ (fun m hm => hmembers m (List.mem_cons_of_mem _ hm))
          (fun m hm => hnames m (List.mem_cons_of_mem _ hm)) (happend ▸ hdistinct)
          ((Nat.le_max_right _ _).trans hmax) (by omega), happend]

theorem reads_object (hnames : ∀ m ∈ members, ∃ s : String, m.1 = .ofString s)
    (hdistinct : (members.map (·.1)).Nodup) (h : ∀ m ∈ members, Reads m.2) :
    Reads (.object members) := by
  cases members with
  | nil =>
      have hchars (depth : Nat) : chars depth (.object []) = ['{', '}'] := by
        rw [chars, pieces]
        rfl
      refine ⟨fun depth => ⟨'{', _, hchars depth, by decide⟩,
        fun {depth fuel nest rest} hnest hfuel _ => ?_⟩
      rw [hchars] at hfuel ⊢
      obtain ⟨k, rfl⟩ := Nat.exists_eq_succ_of_ne_zero (Nat.ne_zero_of_lt hfuel)
      rw [reach, membersReach] at hnest
      obtain ⟨l, rfl⟩ := Nat.exists_eq_succ_of_ne_zero (show nest ≠ 0 by omega)
      exact readValue_emptyObject (skipBlanks_of_not_blank rfl rest)
  | cons first members =>
      refine ⟨fun depth => ⟨'{', _, chars_object_cons depth first members, by decide⟩,
        fun {depth fuel nest rest} hnest hfuel _ => ?_⟩
      rw [chars_object_cons] at hfuel ⊢
      obtain ⟨k, rfl⟩ := Nat.exists_eq_succ_of_ne_zero (Nat.ne_zero_of_lt hfuel)
      rw [reach] at hnest
      obtain ⟨l, rfl⟩ := Nat.exists_eq_succ_of_ne_zero (show nest ≠ 0 by omega)
      simp only [List.length_cons, List.length_append] at hfuel
      have hskip : skipBlanks (breakChars (depth + 1) ++ (memberChars depth first ++
          (membersChars depth members ++ (breakChars depth ++ '}' :: rest)))) =
          memberChars depth first ++ (membersChars depth members ++ (breakChars depth ++ '}' :: rest)) := by
        rw [skipBlanks_breakChars]
        exact skipBlanks_of_not_blank rfl _
      have hhead : (memberChars depth first ++
          (membersChars depth members ++ (breakChars depth ++ '}' :: rest))).head? ≠ some '}' := by
        rintro ⟨⟩
      rw [List.cons_append, List.append_assoc, List.append_assoc, List.append_assoc, List.append_assoc,
        List.singleton_append, readValue_object hskip hhead,
        readMembers_chars [] h hnames hdistinct (by omega) (by rw [List.length_append]; omega)]
      rfl

/-! ## Documents -/

theorem IsRegular.reads (h : value.IsRegular) : Reads value := by
  induction h with
  | null =>
      have hchars (depth : Nat) : chars depth .null = "null".toList := by
        rw [chars, pieces, List.flatMap_singleton]
      exact reads_of_readScalar hchars fun _ _ => rfl
  | bool b =>
      cases b with
      | true =>
          have hchars (depth : Nat) : chars depth (.bool true) = "true".toList := by
            rw [chars, pieces, List.flatMap_singleton]
          exact reads_of_readScalar hchars fun _ _ => rfl
      | false =>
          have hchars (depth : Nat) : chars depth (.bool false) = "false".toList := by
            rw [chars, pieces, List.flatMap_singleton]
          exact reads_of_readScalar hchars fun _ _ => rfl
  | @int n hn =>
      have hchars (depth : Nat) : chars depth (.int n) = (Decimal.integer n).toList := by
        rw [chars, pieces, List.flatMap_singleton]
      exact reads_of_readScalar hchars fun _ hrest => readScalar_integer hn hrest
  | @float x hx =>
      have hchars (depth : Nat) : chars depth (.float x) = (floatText x).toList := by
        rw [chars, pieces, List.flatMap_singleton]
      exact reads_of_readScalar hchars fun _ hrest => readScalar_floatText hx hrest
  | string s => exact reads_string s
  | array _ ih => exact reads_array ih
  | object hnames hdistinct _ ih => exact reads_object hnames hdistinct ih

/-- A document that can be written to a file is read as it is. -/
theorem read_write (h : value.IsRegular) (hshallow : value.isShallow = true) :
    read (value.write .indented).toList = .ok value := by
  have hreads := h.reads
  obtain ⟨c, cs, hchars, hforeign⟩ := hreads.starts 0
  have hreach : value.reach ≤ 2 * maxNesting := by
    have hle : value.reach ≤ maxReach := of_decide_eq_true hshallow
    exact hle.trans (by decide)
  have hread := hreads.reads hreach (show (chars 0 value).length ≤ 2 * (chars 0 value).length + 2 by omega)
    endsValue_nil
  have hskip := hreads.skipBlanks 0 []
  rw [List.append_nil] at hread hskip
  have hall : readAll (chars 0 value) = .ok value := by
    unfold readAll
    split
    · next heq =>
      obtain rfl := (List.cons.inj (hchars.symm.trans heq)).1
      cases hforeign
    · rw [hskip, hread]
      rfl
  rw [toList_write, read, hall]
  rfl

end TurretPunch.Json
