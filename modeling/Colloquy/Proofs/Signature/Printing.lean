import Colloquy.Proofs.Signature.Resolution
import Colloquy.Proofs.Text.Cut
import Colloquy.Proofs.Text.Trim

/-!
# Printed signatures

A signature that was read is read again from its text.  What separates the parts of a printed
signature does not occur within them, and a printed type is split into its name and its brackets
where they were put together.
-/

namespace Colloquy

namespace TypeRef

/-- A character of a printed type. -/
def isTypeChar (c : Char) : Bool := isNameChar c || c == '[' || c == ']'

/-- The blanks, and the signs between the parts of a printed signature, as ranges of code points. -/
def separatorRanges : List (Nat × Nat) :=
  [(0x09, 0x0d), (0x20, 0x20), (0x29, 0x29), (0x2c, 0x2c), (0x5d, 0x5d), (0x85, 0x85),
    (0xa0, 0xa0), (0x1680, 0x1680), (0x2000, 0x200a), (0x2028, 0x2029),
    (0x202f, 0x202f), (0x205f, 0x205f), (0x3000, 0x3000)]

/-- A separator is no part of a name, since no range of letters and numbers meets its range. -/
theorem not_isNameChar_of_inRanges {c : Char}
    (separates : Text.inRanges separatorRanges c.toNat) : isNameChar c = false := by
  have apart : separatorRanges.all fun separator => Text.alphanumericRanges.all
      fun letters => letters.2 < separator.1 || separator.2 < letters.1 := by
    decide +kernel
  have signs : ['_', '.', '$'].all fun sign => !Text.inRanges separatorRanges sign.toNat := by
    decide
  have other {sign : Char} (member : sign ∈ ['_', '.', '$']) : c ≠ sign := by
    rintro rfl
    simpa [separates] using List.all_eq_true.1 signs c member
  have noLetter : Text.isAlphanumeric c = false := by
    obtain ⟨separator, member, within⟩ := List.any_eq_true.1 separates
    rw [Text.isAlphanumeric, Text.inRanges, List.any_eq_false]
    intro letters known
    have out := List.all_eq_true.1 (List.all_eq_true.1 apart separator member) letters known
    simp only [Bool.or_eq_true, Bool.and_eq_true, decide_eq_true_eq] at within out ⊢
    omega
  simp [isNameChar, noLetter, other]

theorem not_isNameChar_of_isBlank {c : Char} (blank : Text.isBlank c) : isNameChar c = false := by
  refine not_isNameChar_of_inRanges ?_
  simp only [Text.isBlank, Bool.or_eq_true, Bool.and_eq_true, decide_eq_true_eq,
    beq_iff_eq] at blank
  simp only [Text.inRanges, separatorRanges, List.any_cons, List.any_nil, Bool.or_eq_true,
    Bool.and_eq_true, decide_eq_true_eq]
  omega

theorem not_isNameChar_of_sign {c : Char} (sign : c ∈ [')', ',', ']']) : isNameChar c = false := by
  refine not_isNameChar_of_inRanges ?_
  simp only [List.mem_cons, List.not_mem_nil, or_false] at sign
  rcases sign with rfl | rfl | rfl <;> decide

theorem not_isBlank_of_isTypeChar {c : Char} (part : isTypeChar c) : Text.isBlank c = false := by
  rw [Bool.eq_false_iff]
  intro blank
  simp only [isTypeChar, not_isNameChar_of_isBlank blank, Bool.false_or, Bool.or_eq_true,
    beq_iff_eq] at part
  rcases part with rfl | rfl <;> cases blank

theorem not_isTypeChar_of_sign {c : Char} (sign : c ∈ [')', ',']) : isTypeChar c = false := by
  have noName : isNameChar c = false :=
    not_isNameChar_of_sign (List.mem_append_left [']'] sign)
  simp only [List.mem_cons, List.not_mem_nil, or_false] at sign
  rcases sign with rfl | rfl <;> simp [isTypeChar, noName]

theorem not_mem_of_all_isTypeChar {text : List Char} (spelled : text.all isTypeChar) {c : Char}
    (other : isTypeChar c = false) : c ∉ text := by
  intro member
  rw [List.all_eq_true.1 spelled c member] at other
  cases other

/-- There are no blanks around the text of a type. -/
theorem trim_of_all_isTypeChar {text : List Char} (spelled : text.all isTypeChar) :
    Text.trim text = text :=
  Text.trim_eq_self
    (fun c first => not_isBlank_of_isTypeChar
      (List.all_eq_true.1 spelled c (List.mem_of_mem_head? first)))
    fun c final => not_isBlank_of_isTypeChar
      (List.all_eq_true.1 spelled c (List.mem_of_getLast? final))

/-- The number of bracket pairs behind the name of a type. -/
def depth : TypeRef → Nat
  | array element => element.depth + 1
  | _ => 0

/-- The type without its bracket pairs. -/
def core : TypeRef → TypeRef
  | array element => element.core
  | type => type

@[simp]
theorem nested_core (type : TypeRef) : type.core.nested type.depth = type := by
  induction type with
  | primitive type => rfl
  | named name => rfl
  | array element ih => exact congrArg array ih

@[simp]
theorem toList_text_array (element : TypeRef) :
    (array element).text.toList = element.text.toList ++ ['[', ']'] := by
  simp [text]

/-- The keyword of a primitive type is a name. -/
theorem isNameChar_keyword (type : Primitive) :
    type.keyword.toList ≠ [] ∧ type.keyword.toList.all isNameChar := by
  rcases type with _ | _ | ((_ | _ | _ | _) | _ | _) <;> decide

/-- The text of a type without brackets is a name. -/
theorem isNameChar_core {type : TypeRef} (names : type.Names Nameable) :
    type.core.text.toList ≠ [] ∧ type.core.text.toList.all isNameChar := by
  induction type with
  | primitive type => exact isNameChar_keyword type
  | named name => exact ⟨names.nonempty, names.spelled⟩
  | array element ih => exact ih names

theorem isTypeChar_text {type : TypeRef} (names : type.Names Nameable) :
    type.text.toList.all isTypeChar := by
  have plain (type : TypeRef) (spelled : type.text.toList.all isNameChar) :
      type.text.toList.all isTypeChar := by
    rw [List.all_eq_true] at spelled ⊢
    exact fun c member => by simp [isTypeChar, spelled c member]
  induction type with
  | primitive type => exact plain _ (isNameChar_core names).2
  | named name => exact plain _ (isNameChar_core names).2
  | array element ih =>
    simp [ih names, isTypeChar]

theorem text_ne_nil {type : TypeRef} (names : type.Names Nameable) : type.text.toList ≠ [] := by
  cases type with
  | primitive type => exact (isNameChar_core names).1
  | named name => exact (isNameChar_core names).1
  | array element => simp

/-- A printed type does not end with three dots. -/
theorem not_spread_text {type : TypeRef} (names : type.Names Nameable) :
    ¬['.', '.', '.'] <:+ type.text.toList := by
  cases type with
  | primitive type => rcases type with _ | _ | ((_ | _ | _ | _) | _ | _) <;> decide
  | named name => exact names.notSpread
  | array element =>
    rintro ⟨front, same⟩
    have last := congrArg List.getLast? same
    simp at last

theorem splitArrays_of_isNameChar {c : Char} (spelled : isNameChar c) (rest : List Char) :
    splitArrays (c :: rest) = (0, c :: rest) := by
  have bracket : c ≠ ']' := by
    rintro rfl
    rw [not_isNameChar_of_sign (by decide)] at spelled
    cases spelled
  have visible : Text.isBlank c = false := by
    rw [Bool.eq_false_iff]
    intro blank
    rw [not_isNameChar_of_isBlank blank] at spelled
    cases spelled
  unfold splitArrays
  split
  · rename_i same
    cases same
    exact absurd rfl bracket
  · rename_i same
    cases same
    rw [visible]
    rfl
  · rename_i same
    cases same

theorem splitArrays_brackets (rest : List Char) :
    splitArrays (']' :: '[' :: rest) = ((splitArrays rest).1 + 1, (splitArrays rest).2) :=
  rfl

/-- A printed type is split where its name and its brackets were put together. -/
theorem splitArrays_text {type : TypeRef} (names : type.Names Nameable) (before : List Char) :
    splitArrays (before ++ type.text.toList).reverse =
      (type.depth, (before ++ type.core.text.toList).reverse) := by
  have plain (type : TypeRef) (solid : type.text.toList ≠ [])
      (spelled : type.text.toList.all isNameChar) :
      splitArrays (before ++ type.text.toList).reverse =
        (0, (before ++ type.text.toList).reverse) := by
    obtain ⟨front, c, shape⟩ := (List.eq_nil_or_concat _).resolve_left solid
    have final : isNameChar c := List.all_eq_true.1 spelled c (by simp [shape])
    have last : (before ++ type.text.toList).reverse = c :: (before ++ front).reverse := by
      simp [shape]
    rw [last]
    exact splitArrays_of_isNameChar final _
  induction type with
  | primitive type => exact plain _ (isNameChar_core names).1 (isNameChar_core names).2
  | named name => exact plain _ (isNameChar_core names).1 (isNameChar_core names).2
  | array element ih =>
    have brackets : (before ++ (array element).text.toList).reverse =
        ']' :: '[' :: (before ++ element.text.toList).reverse := by
      simp
    rw [brackets, splitArrays_brackets, ih names]
    rfl

end TypeRef

/-! ## Reading printed types -/

section Reading

variable {memory ε α β : Type} {resolve : Resolver memory} {now : memory}

/-- From a memory on, a step returns a result and does nothing but resolve names. -/
def Resolver.Reads (resolve : Resolver memory) (now : memory) (step : ExceptT ε (StateM memory) α)
    (result : α) : Prop :=
  ∃ after, resolve.Reaches now after ∧ step.run.run now = (.ok result, after)

theorem Resolver.reads_pure (result : α) :
    resolve.Reads now (pure result : ExceptT ε (StateM memory) α) result :=
  ⟨now, .refl, rfl⟩

theorem Resolver.Reads.bind {step : ExceptT ε (StateM memory) α}
    {next : α → ExceptT ε (StateM memory) β} {value : α} {result : β}
    (first : resolve.Reads now step value)
    (second : ∀ middle, resolve.Reaches now middle → resolve.Reads middle (next value) result) :
    resolve.Reads now (step >>= next) result := by
  obtain ⟨middle, reached, firstRun⟩ := first
  obtain ⟨after, further, secondRun⟩ := second middle reached
  refine ⟨after, reached.trans further, ?_⟩
  rw [ExceptT.run_bind, StateT.run_bind, firstRun]
  exact secondRun

namespace TypeRef

theorem Names.later {next : memory} {type : TypeRef} (names : type.Names (resolve.Settled now))
    (reached : resolve.Reaches now next) : type.Names (resolve.Settled next) :=
  names.imp fun _ settled => settled.later reached

theorem Names.nameable {type : TypeRef} (names : type.Names (resolve.Settled now)) :
    type.Names Nameable :=
  names.imp fun _ settled => settled.1

theorem ofName?_primitive (type : Primitive) :
    ((ofName? resolve type.keyword.toList).run now).1 = some (primitive type) := by
  have admitted : (type.keyword.toList.isEmpty || !type.keyword.toList.all isNameChar) = false := by
    obtain ⟨nonempty, spelled⟩ := isNameChar_keyword type
    simp [nonempty, spelled]
  simp only [ofName?, admitted, String.ofList_toList, Primitive.ofKeyword?_keyword]
  rfl

theorem ofName?_named {name : String} (settled : resolve.Settled now name) :
    ((ofName? resolve name.toList).run now).1 = some (named name) := by
  obtain ⟨nameable, kept⟩ := settled
  have admitted : (name.toList.isEmpty || !name.toList.all isNameChar) = false := by
    simp [nameable.nonempty, nameable.spelled]
  simp only [ofName?, admitted, String.ofList_toList, nameable.notPrimitive]
  exact congrArg (Option.map named) (kept now .refl)

/-- The name of a type stands for the type without its brackets. -/
theorem ofName?_core {type : TypeRef} (names : type.Names (resolve.Settled now)) :
    ((ofName? resolve type.core.text.toList).run now).1 = some type.core := by
  induction type with
  | primitive type => exact ofName?_primitive type
  | named name => exact ofName?_named names
  | array element ih => exact ih names

/-- A type is read from its text, also from behind blanks. -/
theorem parse?_text {type : TypeRef} (names : type.Names (resolve.Settled now))
    (blanks : List Char) (blank : Text.allBlank blanks) :
    ((parse? resolve (blanks ++ type.text.toList)).run now).1 = some type := by
  have begins : Text.trimStart (blanks ++ type.core.text.toList) = type.core.text.toList := by
    obtain ⟨solid, spelled⟩ := isNameChar_core names.nameable
    rw [Text.trimStart_append_of_allBlank blank]
    obtain ⟨c, rest, shape⟩ := List.exists_cons_of_ne_nil solid
    have first : isNameChar c := List.all_eq_true.1 spelled c (by simp [shape])
    have visible : Text.isBlank c = false := not_isBlank_of_isTypeChar (by simp [isTypeChar, first])
    rw [shape, Text.trimStart, List.dropWhile_cons_of_neg (by simp [visible])]
  simp only [parse?, splitArrays_text names.nameable, List.reverse_reverse, begins]
  exact (congrArg (Option.map (·.nested type.depth)) (ofName?_core names)).trans
    (congrArg some type.nested_core)

end TypeRef

namespace Signature

theorem reads_parseType {type : TypeRef} (names : type.Names (resolve.Settled now))
    (blanks : List Char) (blank : Text.allBlank blanks) (name : List Char) :
    resolve.Reads now (parseType resolve (blanks ++ type.text.toList) name) type := by
  have reached : resolve.Reaches now
      ((parseType resolve (blanks ++ type.text.toList) name).run.run now).2 :=
    good_parseType (compositional_keeps _) (Resolver.keeps_reaches now) _ name now .refl
  refine ⟨_, reached, ?_⟩
  rw [run_parseType, TypeRef.parse?_text names blanks blank]
  rfl

end Signature

namespace Signature

theorem splitVariadic_text {type : TypeRef} (names : type.Names Nameable) :
    splitVariadic type.text.toList = (type.text.toList, false) := by
  have unfound : ['.', '.', '.'].isPrefixOf? type.text.toList.reverse = none := by
    rw [Text.isPrefixOf?_eq_none_iff]
    exact fun spread => TypeRef.not_spread_text names (List.reverse_prefix.1 spread)
  rw [splitVariadic, unfound]

theorem splitVariadic_spread (text : List Char) :
    splitVariadic (text ++ ['.', '.', '.']) = (text, true) := by
  have found : ['.', '.', '.'].isPrefixOf? (text ++ ['.', '.', '.']).reverse =
      some text.reverse := by
    rw [List.reverse_append]
    exact List.isPrefixOf?_eq_some_iff_append_eq.2 rfl
  simp only [splitVariadic, found, List.reverse_reverse]

/-- A parameter that is not variadic is read before the others. -/
theorem reads_param {param : TypeRef} (names : param.Names (resolve.Settled now))
    {position : Nat} {rest : List (List Char)} {types : List TypeRef} {variadic : Bool}
    (others : ∀ middle, resolve.Reaches now middle →
      resolve.Reads middle (parseParams resolve (position + 1) rest) (types, variadic)) :
    resolve.Reads now (parseParams resolve position (param.text.toList :: rest))
      (param :: types, variadic) := by
  have solid : param.text.toList.isEmpty = false := by simp [TypeRef.text_ne_nil names.nameable]
  rw [parseParams, splitVariadic_text names.nameable]
  simp only [solid, Bool.false_eq_true, if_false]
  refine (reads_parseType names [] rfl _).bind fun middle reached => ?_
  exact (others middle reached).bind fun after _ => Resolver.reads_pure _

/-- A variadic parameter is read if it is the last one. -/
theorem reads_variadic {element : TypeRef} (names : element.Names (resolve.Settled now))
    (position : Nat) :
    resolve.Reads now (parseParams resolve position [element.text.toList ++ ['.', '.', '.']])
      ([.array element], true) := by
  have solid : element.text.toList.isEmpty = false := by simp [TypeRef.text_ne_nil names.nameable]
  rw [parseParams, splitVariadic_spread]
  simp only [solid, Bool.false_eq_true, if_false]
  exact (reads_parseType names [] rfl _).bind fun middle _ => Resolver.reads_pure _

/-- Parameters are read from their texts. -/
theorem reads_parseParams {variadic : Bool} {types : List TypeRef}
    (names : ∀ type ∈ types, type.Names (resolve.Settled now)) (spread : Spread types variadic)
    (position : Nat) :
    resolve.Reads now
      (parseParams resolve position ((paramTexts variadic types).map String.toList))
      (types, variadic) := by
  fun_induction paramTexts variadic types generalizing position now with
  | case1 =>
    obtain rfl : variadic = false := by
      rw [Bool.eq_false_iff]
      intro last
      obtain ⟨element, absent⟩ := spread last
      cases absent
    exact Resolver.reads_pure _
  | case2 element =>
    cases variadic with
    | true =>
      have named : element.Names (resolve.Settled now) := names (.array element) (.head _)
      simp only [if_true, List.map_cons, List.map_nil, String.toList_append]
      exact reads_variadic named position
    | false => exact reads_param (names _ (.head _)) fun _ _ => Resolver.reads_pure _
  | case3 param rest other ih =>
    obtain ⟨first, later⟩ := List.forall_mem_cons.1 names
    refine reads_param first fun middle reached => ?_
    refine ih (fun type member => (later type member).later reached) (fun last => ?_) _
    -- The last parameter is not the first one, which is no array if it stands alone.
    obtain ⟨element, final⟩ := spread last
    cases rest with
    | nil => exact absurd rfl (other element (Option.some.inj final))
    | cons second rest => exact ⟨element, by rwa [List.getLast?_cons_cons] at final⟩

/-- The texts of parameters are those of types, possibly with dots behind them. -/
theorem isTypeChar_paramTexts (variadic : Bool) {types : List TypeRef}
    (names : ∀ type ∈ types, type.Names Nameable) :
    ∀ text ∈ paramTexts variadic types,
      text.toList ≠ [] ∧ text.toList.all TypeRef.isTypeChar := by
  fun_induction paramTexts variadic types with
  | case1 => exact List.forall_mem_nil _
  | case2 element =>
    have named : element.Names Nameable := names (.array element) (.head _)
    refine List.forall_mem_singleton.2 ?_
    cases variadic with
    | true =>
      have dots : TypeRef.isTypeChar '.' := by simp [TypeRef.isTypeChar, TypeRef.isNameChar]
      simp [TypeRef.isTypeChar_text named, dots]
    | false =>
      have printed : (TypeRef.array element).Names Nameable := named
      exact ⟨TypeRef.text_ne_nil printed, TypeRef.isTypeChar_text printed⟩
  | case3 param rest other ih =>
    obtain ⟨first, later⟩ := List.forall_mem_cons.1 names
    exact List.forall_mem_cons.2
      ⟨⟨TypeRef.text_ne_nil first, TypeRef.isTypeChar_text first⟩, ih later⟩

/-- A space in front of a text does not change the trimmed parts of its split. -/
theorem trim_splitOn_space (text : List Char) :
    ((' ' :: text).splitOn ',').map Text.trim = (text.splitOn ',').map Text.trim := by
  obtain ⟨part, others, known⟩ := List.exists_cons_of_ne_nil (List.splitOn_ne_nil ',' text)
  have behind : Text.trim (' ' :: part) = Text.trim part :=
    Text.trim_of_allBlank_append (by decide : Text.allBlank [' ']) part
  simp [List.splitOn_cons_eq_if_modifyHead, known, behind]

/-- Texts that are joined by a comma and a space are the trimmed parts between the commas. -/
theorem trim_splitOn_intercalate {texts : List (List Char)} (nonempty : texts ≠ [])
    (spelled : ∀ text ∈ texts, text.all TypeRef.isTypeChar) :
    (([',', ' '].intercalate texts).splitOn ',').map Text.trim = texts := by
  induction texts with
  | nil => exact absurd rfl nonempty
  | cons text texts ih =>
    obtain ⟨here, later⟩ := List.forall_mem_cons.1 spelled
    have apart : ',' ∉ text :=
      TypeRef.not_mem_of_all_isTypeChar here (TypeRef.not_isTypeChar_of_sign (by decide))
    have part : (text.splitOn ',').map Text.trim = [text] := by
      rw [List.splitOn_eq_singleton apart, List.map_singleton, TypeRef.trim_of_all_isTypeChar here]
    cases texts with
    | nil => simpa using part
    | cons next texts =>
      rw [List.intercalate_cons_cons, List.append_assoc, List.cons_append, List.singleton_append,
        List.splitOn_append_cons_self, List.map_append, part, trim_splitOn_space,
        ih (by simp) later]
      rfl

/-- The text between the brackets of a printed signature. -/
def listText (variadic : Bool) (types : List TypeRef) : List Char :=
  [',', ' '].intercalate ((paramTexts variadic types).map String.toList)

theorem not_mem_listText {variadic : Bool} {types : List TypeRef}
    (names : ∀ type ∈ types, type.Names Nameable) : ')' ∉ listText variadic types := by
  intro member
  rcases Text.mem_intercalate member with between | ⟨text, known, within⟩
  · revert between
    decide
  · obtain ⟨param, printed, rfl⟩ := List.mem_map.1 known
    exact TypeRef.not_mem_of_all_isTypeChar (isTypeChar_paramTexts variadic names param printed).2
      (TypeRef.not_isTypeChar_of_sign (by decide)) within

theorem not_allBlank_intercalate {text : List Char} (solid : text ≠ [])
    (spelled : text.all TypeRef.isTypeChar) (separator : List Char) (others : List (List Char)) :
    Text.allBlank (separator.intercalate (text :: others)) = false := by
  obtain ⟨c, rest, rfl⟩ := List.exists_cons_of_ne_nil solid
  have visible : Text.isBlank c = false :=
    TypeRef.not_isBlank_of_isTypeChar (List.all_eq_true.1 spelled c (.head _))
  cases others <;> simp [List.intercalate_cons_cons, Text.allBlank, visible]

/-- The parameters of a signature are read from the text between its brackets. -/
theorem reads_parseList {variadic : Bool} {types : List TypeRef}
    (names : ∀ type ∈ types, type.Names (resolve.Settled now)) (spread : Spread types variadic) :
    resolve.Reads now (parseList resolve (listText variadic types)) (types, variadic) := by
  have read := reads_parseParams names spread 1
  have spelled := isTypeChar_paramTexts variadic fun type member => (names type member).nameable
  unfold listText
  cases printed : (paramTexts variadic types).map String.toList with
  | nil =>
    rw [printed] at read
    exact read
  | cons first others =>
    have texts : ∀ text ∈ first :: others, text ≠ [] ∧ text.all TypeRef.isTypeChar := by
      rw [← printed]
      exact List.forall_mem_map.2 spelled
    obtain ⟨solid, plain⟩ := texts first (.head _)
    rw [parseList, not_allBlank_intercalate solid plain,
      trim_splitOn_intercalate (List.cons_ne_nil _ _) fun text member => (texts text member).2,
      ← printed]
    exact read

/-- The text of a result behind the brackets of a printed signature. -/
def returnsText : Option TypeRef → List Char
  | some type => [':', ' '] ++ type.text.toList
  | none => []

theorem toList_text (signature : Signature) :
    signature.text.toList =
      '(' :: listText signature.variadic signature.params ++
        ')' :: returnsText signature.returns := by
  rw [text, listText]
  cases signature.returns <;> simp [returnsText, String.toList_intercalate]

theorem visible_returnsText {returns : Option TypeRef}
    (names : ∀ type ∈ returns, type.Names Nameable) :
    ∀ c ∈ (returnsText returns).getLast?, Text.isBlank c = false := by
  cases returns with
  | none => exact fun _ none => nomatch none
  | some type =>
    have named := names type rfl
    intro c final
    rw [returnsText, List.getLast?_append,
      List.getLast?_eq_some_getLast (TypeRef.text_ne_nil named)] at final
    cases final
    exact TypeRef.not_isBlank_of_isTypeChar
      (List.all_eq_true.1 (TypeRef.isTypeChar_text named) _ (List.getLast_mem _))

/-- There are no blanks around the text of a signature. -/
theorem trim_text {signature : Signature} (names : signature.Names Nameable) :
    Text.trim signature.text.toList = signature.text.toList := by
  rw [toList_text]
  refine Text.trim_eq_self (fun c first => ?_) fun c final => ?_
  · cases first
    decide
  · rw [List.getLast?_append, List.getLast?_cons] at final
    cases last : (returnsText signature.returns).getLast? with
    | none =>
      rw [last] at final
      cases final
      decide
    | some other =>
      rw [last] at final
      cases final
      exact visible_returnsText names.returns other last

theorem reads_parseReturns {returns : Option TypeRef}
    (names : ∀ type ∈ returns, type.Names (resolve.Settled now)) :
    resolve.Reads now (parseReturns resolve (Text.trim (returnsText returns))) returns := by
  cases returns with
  | none => exact Resolver.reads_pure _
  | some type =>
    have named := names type rfl
    have ends : ∀ c ∈ (returnsText (some type)).getLast?, Text.isBlank c = false :=
      visible_returnsText fun type member => (names type member).nameable
    have trimmed : Text.trim (returnsText (some type)) = ':' :: ([' '] ++ type.text.toList) :=
      Text.trim_eq_self (by rintro _ ⟨⟩; decide) ends
    rw [trimmed, parseReturns]
    exact (reads_parseType named [' '] (by decide) _).bind fun _ _ => Resolver.reads_pure _

/-- A signature is read from its text if its classes are settled. -/
theorem reads_parseTrimmed {signature : Signature}
    (names : signature.Names (resolve.Settled now))
    (spread : Spread signature.params signature.variadic) :
    resolve.Reads now (parseTrimmed resolve signature.text.toList) signature := by
  have cut : Text.cutAt? [')'] (listText signature.variadic signature.params ++
      ')' :: returnsText signature.returns) =
        some (listText signature.variadic signature.params, returnsText signature.returns) :=
    Text.cutAt?_singleton_iff.2
      ⟨rfl, not_mem_listText fun type member => (names.params type member).nameable⟩
  rw [toList_text, List.cons_append, parseTrimmed, cut]
  refine (reads_parseReturns names.returns).bind fun middle reached => ?_
  have later : ∀ type ∈ signature.params, type.Names (resolve.Settled middle) :=
    fun type member => (names.params type member).later reached
  exact (reads_parseList later spread).bind fun _ _ => Resolver.reads_pure _

/-- A signature that was read is read again from its text, then and at any later time.  So its text
is canonical: it is printed for what it is read as. -/
theorem parse_text_of_parse {memory : Type} {resolve : Resolver memory}
    (canonical : resolve.Canonical) {text : String} {signature : Signature}
    {before after later : memory}
    (read : (parse resolve text).run.run before = (.ok signature, after))
    (reached : resolve.Reaches after later) :
    ((parse resolve signature.text).run.run later).1 = .ok signature ∧
      ((Signature.text <$> parse resolve signature.text).run.run later).1 = .ok signature.text := by
  have settled := settled_parse canonical read
  have names : signature.Names (resolve.Settled later) :=
    ⟨fun type member => (settled.params type member).later reached,
      fun type member => (settled.returns type member).later reached⟩
  have nameable : signature.Names Nameable :=
    ⟨fun type member => (names.params type member).nameable,
      fun type member => (names.returns type member).nameable⟩
  obtain ⟨final, -, again⟩ := reads_parseTrimmed names (gives_parse _ _ _ _ _ read)
  have printed : (parse resolve signature.text).run.run later = (.ok signature, final) := by
    rw [run_parse_ok_iff, trim_text nameable, again]
  refine ⟨congrArg Prod.fst printed, ?_⟩
  rw [ExceptT.run_map, StateT.run_map, printed]
  rfl

/-- Blanks and short names are not printed again; nested arrays and variadic ones are. -/
theorem parse_text_of_parse_arrays :
    let printed := "(int, java.lang.String[][]...): java.lang.Object[]"
    let signature : Signature :=
      ⟨[.primitive (.numeric (.whole .int)), .array (.array (.array (.named TypeName.string)))],
        true, some (.array (.named TypeName.object))⟩
    let resolve := Catalog.ofValues.resolver
    resolve.Canonical ∧
      (parse resolve " (int, String[] [] ... ): Object[]").run.run () = (.ok signature, ()) ∧
      signature.text = printed ∧
      ((parse resolve printed).run.run ()).1 = .ok signature ∧
      ((Signature.text <$> parse resolve printed).run.run ()).1 = .ok printed := by
  intro printed signature resolve
  have canonical : resolve.Canonical := Catalog.canonical_resolver (by decide +kernel)
  have read : (parse resolve " (int, String[] [] ... ): Object[]").run.run () =
      (.ok signature, ()) := by
    rfl
  have text : signature.text = printed := by decide +kernel
  have again := parse_text_of_parse canonical read .refl
  rw [text] at again
  exact ⟨canonical, read, text, again⟩

end Signature

end Reading

end Colloquy
