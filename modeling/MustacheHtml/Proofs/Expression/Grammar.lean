import MustacheHtml.Proofs.Expression.Quotes
import MustacheHtml.Proofs.Expression.WrittenCall

/-!
The grammar of expressions: how a text is parted into tokens, what a token stands for, and which
rows of tokens are an expression. Reading accepts what the grammar derives and nothing else.
-/

namespace MustacheHtml.Expression

/-- Text without a blank outside quotes, in which every quoted run is closed by the next equal
quote. -/
inductive Unparted : List Char → Prop where
  | nil : Unparted []
  | char {c : Char} {rest : List Char} (hquote : Text.isQuote c = false)
      (hblank : Text.isBlank c = false) (hrest : Unparted rest) : Unparted (c :: rest)
  | quoted {quote : Char} {content rest : List Char} (hquote : Text.isQuote quote = true)
      (hcontent : quote ∉ content) (hrest : Unparted rest) :
      Unparted (quote :: content ++ quote :: rest)

/-- The tokens of a text, which reach from blank to blank. -/
inductive Splits : List Char → List (List Char) → Prop where
  | blanks {text : List Char} (hblanks : ∀ c ∈ text, Text.isBlank c = true) : Splits text []
  | token {blanks token rest : List Char} {others : List (List Char)}
      (hblanks : ∀ c ∈ blanks, Text.isBlank c = true) (hnonempty : token ≠ [])
      (htoken : Unparted token) (hmaximal : ∀ c ∈ rest.head?, Text.isBlank c = true)
      (hothers : Splits rest others) : Splits (blanks ++ (token ++ rest)) (token :: others)

/-- An optional minus, digits, and an optional point with digits after it. -/
inductive WrittenNumber : List Char → Float → Prop where
  | integer {digits : List Char} (negative : Bool) (hdigits : Decimal.isDigits digits = true) :
      WrittenNumber (signText negative ++ digits) (Decimal.ofDigits negative digits [])
  | decimal {whole fraction : List Char} (negative : Bool)
      (hwhole : Decimal.isDigits whole = true) (hfraction : Decimal.isDigits fraction = true) :
      WrittenNumber (signText negative ++ (whole ++ '.' :: fraction))
        (Decimal.ofDigits negative whole fraction)

/-- The same quote at both ends. -/
inductive WrittenString : List Char → List Char → Prop where
  | string {quote : Char} {content : List Char} (hquote : Text.isQuote quote = true) :
      WrittenString (quote :: content ++ [quote]) content

/-- What a token stands for. -/
inductive Means : List Char → Param → Prop where
  | number {token : List Char} {value : Float} (hnumber : WrittenNumber token value) :
      Means token (.number value)
  | yes : Means ['t', 'r', 'u', 'e'] (.boolean true)
  | no : Means ['f', 'a', 'l', 's', 'e'] (.boolean false)
  | string {token content : List Char} (hstring : WrittenString token content) :
      Means token (.string (String.ofList content))
  | path {token : List Char} (hnumber : ∀ value, ¬ WrittenNumber token value)
      (htrue : token ≠ ['t', 'r', 'u', 'e']) (hfalse : token ≠ ['f', 'a', 'l', 's', 'e'])
      (hstring : ∀ content, ¬ WrittenString token content) : Means token (.id (splitPath token))

/-- A name that may stand before the sign of a pair. -/
structure IsKey (key : List Char) : Prop where
  nonempty : key ≠ []
  chars : ∀ c ∈ key, isKeyChar c = true

/-- A key, an equals sign and any text after it. -/
def IsPair (token : List Char) : Prop :=
  ∃ key value, IsKey key ∧ token = key ++ '=' :: value

/-- An argument without a key. -/
structure IsPositional (token : List Char) (param : Param) : Prop where
  notPair : ¬ IsPair token
  means : Means token param

/-- An argument with a key. -/
inductive IsAssigned : List Char → String × Param → Prop where
  | pair {key value : List Char} {param : Param} (hkey : IsKey key) (hvalue : value ≠ [])
      (hmeans : Means value param) : IsAssigned (key ++ '=' :: value) (String.ofList key, param)

/-- The expression that the tokens are. Of a call, the hash holds the last value of each key. -/
inductive Denotes : List (List Char) → Expression → Prop where
  | single {token : List Char} {param : Param} (htoken : IsPositional token param) :
      Denotes [token] (ofParam param)
  | call {name : List Char} {segments : List String} {positional assigned : List (List Char)}
      {params : List Param} {entries : List (String × Param)} {hash : Dict Param}
      (hname : IsPositional name (.id segments)) (hsegments : segments ≠ [])
      (harguments : positional ++ assigned ≠ [])
      (hparams : List.Forall₂ IsPositional positional params)
      (hentries : List.Forall₂ IsAssigned assigned entries)
      (hsorted : hash.Sorted) (hlast : ∀ key, hash.get? key = entries.reverse.lookup key) :
      Denotes (name :: (positional ++ assigned)) (.call (String.ofList name) params hash)

section Tokens

variable {text token : List Char} {words others : List (List Char)}

theorem Splits.consRun {rest : List Char} (htoken : Unparted token)
    (hmaximal : ∀ c ∈ rest.head?, Text.isBlank c = true) (hothers : Splits rest others) :
    Splits (token ++ rest) (Text.consRun token others) := by
  cases token with
  | nil => exact hothers
  | cons c more =>
      exact .token (List.forall_mem_nil _) (List.cons_ne_nil c more) htoken hmaximal hothers

theorem Unparted.tokensFrom_eq {rest after : List Char} (htoken : Unparted token)
    (hrest : tokensFrom none rest = .ok (after, words)) :
    tokensFrom none (token ++ rest) = .ok (token ++ after, words) := by
  induction htoken with
  | nil => exact hrest
  | char hquote hblank _ ih => exact tokensFrom_cons hquote hblank ih
  | @quoted quote content token hquote hcontent _ ih =>
      have hrun := tokensFrom_quoted hcontent ih
      simp only [List.append_assoc, List.cons_append]
      rw [tokensFrom, if_pos hquote, hrun]
      rfl

end Tokens

section Classes

variable {token : List Char} {param : Param}

theorem number?_eq_some_iff {value : Float} :
    Param.number? token = some value ↔ WrittenNumber token value := by
  constructor
  · intro hnumber
    unfold Param.number? at hnumber
    split at hnumber
    next negative unsigned hsigned =>
      have htoken : token = signText negative ++ unsigned := by
        split at hsigned
        · cases hsigned
          rfl
        · cases hsigned
          rfl
      have hparts := Text.cutWhile_append (· != '.') unsigned
      have hpoint := List.head?_dropWhile_not (· != '.') unsigned
      rw [htoken, ← hparts]
      simp only [Text.cutWhile] at hnumber ⊢
      cases hafter : unsigned.dropWhile (· != '.') with
      | nil =>
          simp only [hafter, Bool.and_true, Option.ite_none_right_eq_some, Option.some.injEq]
            at hnumber
          obtain ⟨hwhole, rfl⟩ := hnumber
          rw [List.append_nil]
          exact .integer negative hwhole
      | cons c fraction =>
          simp only [hafter, Option.ite_none_right_eq_some, Option.some.injEq, Bool.and_eq_true]
            at hnumber
          obtain ⟨⟨hwhole, hfraction⟩, rfl⟩ := hnumber
          have hc : c = '.' := by simpa [hafter] using hpoint
          subst hc
          exact .decimal negative hwhole hfraction
  · intro hnumber
    cases hnumber with
    | @integer digits negative hdigits =>
        have hnumber := number?_unsigned negative hdigits (.inl ⟨rfl, rfl⟩)
        rwa [List.append_nil] at hnumber
    | decimal negative hwhole hfraction =>
        exact number?_unsigned negative hwhole (.inr ⟨rfl, hfraction⟩)

theorem unquote?_eq_some_iff {content : List Char} :
    Param.unquote? token = some content ↔ WrittenString token content := by
  constructor
  · intro hunquote
    cases token with
    | nil => cases hunquote
    | cons quote rest =>
        simp only [Param.unquote?, Bool.and_eq_true, beq_iff_eq, Option.ite_none_right_eq_some,
          Option.some.injEq] at hunquote
        obtain ⟨⟨hquote, hlast⟩, rfl⟩ := hunquote
        have hrest := List.dropLast_append_getLast? quote hlast
        rw [← hrest, List.dropLast_concat]
        exact .string hquote
  · rintro ⟨hquote⟩
    simp [Param.unquote?, hquote]

theorem classify_eq_iff : Param.classify token = param ↔ Means token param := by
  constructor
  · rintro rfl
    unfold Param.classify
    cases hnumber : Param.number? token with
    | some value =>
        rw [number?_eq_some_iff] at hnumber
        exact .number hnumber
    | none =>
        have hnoNumber : ∀ value, ¬ WrittenNumber token value := by
          intro value hwritten
          rw [← number?_eq_some_iff, hnumber] at hwritten
          cases hwritten
        by_cases htrue : token = ['t', 'r', 'u', 'e']
        · subst htrue
          exact .yes
        · by_cases hfalse : token = ['f', 'a', 'l', 's', 'e']
          · subst hfalse
            exact .no
          · simp only [if_neg htrue, if_neg hfalse]
            cases hunquote : Param.unquote? token with
            | some content => exact .string (unquote?_eq_some_iff.mp hunquote)
            | none =>
                refine .path hnoNumber htrue hfalse fun content hstring => ?_
                rw [unquote?_eq_some_iff.mpr hstring] at hunquote
                cases hunquote
  · intro hmeans
    cases hmeans with
    | number hnumber =>
        rw [← number?_eq_some_iff] at hnumber
        rw [Param.classify, hnumber]
    | yes => rfl
    | no => rfl
    | string hstring =>
        cases hstring with
        | string hquote => exact classify_string hquote
    | path hnumber htrue hfalse hstring =>
        simp only [← number?_eq_some_iff, ← Option.eq_none_iff_forall_ne_some] at hnumber
        simp only [← unquote?_eq_some_iff, ← Option.eq_none_iff_forall_ne_some] at hstring
        simp only [Param.classify, hnumber, if_neg htrue, if_neg hfalse, hstring]

end Classes

section Calls

variable {token : List Char}

theorem isKeyChar_equals : isKeyChar '=' = false := by
  decide +kernel

theorem hashPair?_eq_some_iff {key value : List Char} :
    hashPair? token = some (key, value) ↔ IsKey key ∧ token = key ++ '=' :: value := by
  constructor
  · intro hpair
    obtain ⟨⟨before, after⟩, hcut, hkey⟩ := Option.bind_eq_some_iff.mp hpair
    simp only [Option.ite_none_right_eq_some, Option.some.injEq, Bool.and_eq_true, Prod.mk.injEq,
      Bool.not_eq_true', List.isEmpty_eq_false_iff, List.all_eq_true] at hkey
    obtain ⟨⟨hnonempty, hchars⟩, rfl, rfl⟩ := hkey
    have hjoined := Text.cut?_eq_append hcut
    rw [List.append_assoc] at hjoined
    exact ⟨⟨hnonempty, hchars⟩, hjoined⟩
  · rintro ⟨hkey, rfl⟩
    have hequals : '=' ∉ key := by
      intro hmem
      have hchar := hkey.chars '=' hmem
      rw [isKeyChar_equals] at hchar
      exact Bool.false_ne_true hchar
    have hchars : key.all isKeyChar = true := List.all_eq_true.mpr hkey.chars
    have hnonempty : key.isEmpty = false := List.isEmpty_eq_false_iff.mpr hkey.nonempty
    rw [hashPair?, cut?_append hequals]
    simp only [Option.bind_some, hnonempty, hchars, Bool.not_false, Bool.and_self, if_true]

theorem hashPair?_eq_none_iff : hashPair? token = none ↔ ¬ IsPair token := by
  rw [Option.eq_none_iff_forall_ne_some]
  constructor
  · rintro hnone ⟨key, value, hpair⟩
    exact hnone (key, value) (hashPair?_eq_some_iff.mpr hpair)
  · rintro hnone ⟨key, value⟩ hpair
    exact hnone ⟨key, value, hashPair?_eq_some_iff.mp hpair⟩

theorem isPositional_iff {param : Param} :
    IsPositional token param ↔ hashPair? token = none ∧ Param.classify token = param := by
  rw [hashPair?_eq_none_iff, classify_eq_iff]
  exact ⟨fun ⟨hpair, hmeans⟩ => ⟨hpair, hmeans⟩, fun ⟨hpair, hmeans⟩ => ⟨hpair, hmeans⟩⟩

theorem isAssigned_iff {entry : String × Param} : IsAssigned token entry ↔
    ∃ key value, hashPair? token = some (key, value) ∧ value ≠ [] ∧
      entry = (String.ofList key, Param.classify value) := by
  constructor
  · rintro ⟨hkey, hvalue, hmeans⟩
    rw [← classify_eq_iff] at hmeans
    exact ⟨_, _, hashPair?_eq_some_iff.mpr ⟨hkey, rfl⟩, hvalue, by rw [hmeans]⟩
  · rintro ⟨key, value, hpair, hvalue, rfl⟩
    obtain ⟨hkey, rfl⟩ := hashPair?_eq_some_iff.mp hpair
    refine .pair hkey hvalue ?_
    rw [← classify_eq_iff]

variable {arguments next : Arguments} {words : List (List Char)}

theorem add_eq_ok_iff : arguments.add token = .ok next ↔
    (∃ entry, IsAssigned token entry ∧
        next = ⟨arguments.params, arguments.hash.set entry.1 entry.2⟩) ∨
      ∃ param, IsPositional token param ∧ arguments.hash = [] ∧
        next = ⟨arguments.params ++ [param], []⟩ := by
  simp only [isAssigned_iff, isPositional_iff, Arguments.add]
  cases hpair : hashPair? token with
  | some pair =>
      obtain ⟨key, value⟩ := pair
      cases value with
      | nil => simp
      | cons c rest =>
          simp only [List.isEmpty_cons, Bool.false_eq_true, if_false, Except.ok.injEq]
          constructor
          · rintro rfl
            exact .inl ⟨_, ⟨key, c :: rest, rfl, List.cons_ne_nil c rest, rfl⟩, rfl⟩
          · rintro (⟨_, ⟨_, _, hsame, -, rfl⟩, rfl⟩ | ⟨_, ⟨hnone, -⟩, -⟩)
            · cases hsame
              rfl
            · cases hnone
  | none =>
      cases hhash : arguments.hash with
      | nil => simp [eq_comm]
      | cons entry rest => simp

theorem foldlM_add_assigned (hhash : arguments.hash ≠ []) :
    words.foldlM Arguments.add arguments = .ok next ↔ ∃ entries,
      List.Forall₂ IsAssigned words entries ∧ next = ⟨arguments.params,
        entries.foldl (fun dict entry => dict.set entry.1 entry.2) arguments.hash⟩ := by
  induction words generalizing arguments with
  | nil =>
      simp only [List.foldlM_nil, List.forall₂_nil_left_iff, exists_eq_left, List.foldl_nil]
      exact ⟨fun hsame => (Except.ok.inj hsame).symm, fun hsame => by rw [hsame]; rfl⟩
  | cons word others ih =>
      simp only [List.foldlM_cons, bind_eq_ok_iff, add_eq_ok_iff]
      have hset (entry : String × Param) : arguments.hash.set entry.1 entry.2 ≠ [] :=
        Dict.set_ne_nil arguments.hash entry.1 entry.2
      constructor
      · rintro ⟨added, ⟨entry, hentry, rfl⟩ | ⟨_, _, hnil, -⟩, hothers⟩
        · obtain ⟨entries, hentries, rfl⟩ := (ih (hset entry)).mp hothers
          exact ⟨entry :: entries, .cons hentry hentries, rfl⟩
        · exact absurd hnil hhash
      · rintro ⟨_, hentries, rfl⟩
        obtain ⟨entry, entries, hentry, hothers, rfl⟩ := List.forall₂_cons_left_iff.mp hentries
        exact ⟨_, .inl ⟨entry, hentry, rfl⟩, (ih (hset entry)).mpr ⟨entries, hothers, rfl⟩⟩

theorem foldlM_add {params : List Param} :
    words.foldlM Arguments.add ⟨params, []⟩ = .ok next ↔
      ∃ positional assigned more entries, words = positional ++ assigned ∧
        List.Forall₂ IsPositional positional more ∧ List.Forall₂ IsAssigned assigned entries ∧
        next = ⟨params ++ more, Dict.ofList entries⟩ := by
  induction words generalizing params with
  | nil =>
      constructor
      · intro hsame
        cases hsame
        exact ⟨[], [], [], [], rfl, .nil, .nil, by rw [List.append_nil]; rfl⟩
      · rintro ⟨positional, assigned, more, entries, hwords, hmore, hentries, rfl⟩
        obtain ⟨rfl, rfl⟩ := List.append_eq_nil_iff.mp hwords.symm
        cases hmore
        cases hentries
        rw [List.append_nil]
        rfl
  | cons word others ih =>
      simp only [List.foldlM_cons, bind_eq_ok_iff, add_eq_ok_iff]
      constructor
      · rintro ⟨added, ⟨entry, hentry, rfl⟩ | ⟨param, hparam, -, rfl⟩, hothers⟩
        · obtain ⟨entries, hentries, rfl⟩ := (foldlM_add_assigned (List.cons_ne_nil _ _)).mp hothers
          exact ⟨[], word :: others, [], entry :: entries, rfl, .nil, .cons hentry hentries,
            by rw [List.append_nil]; rfl⟩
        · obtain ⟨positional, assigned, more, entries, rfl, hmore, hentries, rfl⟩ := ih.mp hothers
          exact ⟨word :: positional, assigned, param :: more, entries, rfl, .cons hparam hmore,
            hentries, by rw [List.append_assoc]; rfl⟩
      · rintro ⟨positional, assigned, more, entries, hwords, hmore, hentries, rfl⟩
        cases hmore with
        | nil =>
            rw [List.nil_append] at hwords
            subst hwords
            obtain ⟨entry, entries, hentry, hothers, rfl⟩ := List.forall₂_cons_left_iff.mp hentries
            refine ⟨_, .inl ⟨entry, hentry, rfl⟩, ?_⟩
            refine (foldlM_add_assigned (List.cons_ne_nil _ _)).mpr ⟨entries, hothers, ?_⟩
            rw [List.append_nil]
            rfl
        | cons hparam hmore =>
            cases hwords
            refine ⟨_, .inr ⟨_, hparam, trivial, rfl⟩, ?_⟩
            refine ih.mpr ⟨_, assigned, _, entries, rfl, hmore, hentries, ?_⟩
            rw [List.append_assoc]
            rfl

theorem isCallName_iff : isCallName token = true ↔
    ∃ segments, Means token (.id segments) ∧ segments ≠ [] := by
  simp only [← classify_eq_iff, isCallName]
  cases hclass : Param.classify token with
  | id segments => cases segments <;> simp
  | string value => simp
  | number value => simp
  | boolean value => simp

theorem ofTokens_eq_ok_iff {expression : Expression} :
    ofTokens words = .ok expression ↔ Denotes words expression := by
  constructor
  · intro hread
    cases words with
    | nil => cases hread
    | cons first rest =>
        cases hpair : hashPair? first with
        | some pair => simp [ofTokens, hpair] at hread
        | none =>
            have hfirst : IsPositional first (Param.classify first) :=
              isPositional_iff.mpr ⟨hpair, rfl⟩
            cases rest with
            | nil =>
                simp only [ofTokens, hpair] at hread
                cases hread
                exact .single hfirst
            | cons second others =>
                simp only [ofTokens, hpair, Option.isSome_none, Bool.false_eq_true, if_false,
                  List.isEmpty_cons] at hread
                split at hread
                · next hcallable =>
                    obtain ⟨segments, hmeans, hsegments⟩ := isCallName_iff.mp hcallable
                    obtain ⟨arguments, hadded, hcall⟩ := bind_eq_ok_iff.mp hread
                    cases hcall
                    obtain ⟨positional, assigned, params, entries, hwords, hparams, hentries,
                      rfl⟩ := foldlM_add.mp hadded
                    rw [hwords]
                    exact .call ⟨hashPair?_eq_none_iff.mp hpair, hmeans⟩ hsegments
                      (hwords ▸ List.cons_ne_nil second others) hparams hentries
                      (Dict.sorted_ofList entries) (Dict.get?_ofList entries)
                · cases hread
  · intro hdenotes
    cases hdenotes with
    | single htoken =>
        obtain ⟨hpair, rfl⟩ := isPositional_iff.mp htoken
        simp [ofTokens, hpair]
    | @call name segments positional assigned params entries hash hname hsegments harguments
        hparams hentries hsorted hlast =>
        have hpair := hashPair?_eq_none_iff.mpr hname.notPair
        have hcallable := isCallName_iff.mpr ⟨segments, hname.means, hsegments⟩
        have hsome : ¬ (positional ++ assigned).isEmpty = true := by
          rwa [List.isEmpty_iff]
        have hadded : (positional ++ assigned).foldlM Arguments.add {} =
            .ok ⟨params, Dict.ofList entries⟩ :=
          foldlM_add.mpr ⟨positional, assigned, params, entries, rfl, hparams, hentries, rfl⟩
        have hhash : hash = Dict.ofList entries :=
          hsorted.ext (Dict.sorted_ofList entries) fun key => by rw [hlast, Dict.get?_ofList]
        simp only [ofTokens, hpair, Option.isSome_none, Bool.false_eq_true, if_false, if_neg hsome,
          if_pos hcallable, hadded, bind, Except.bind, hhash]

end Calls

end MustacheHtml.Expression
