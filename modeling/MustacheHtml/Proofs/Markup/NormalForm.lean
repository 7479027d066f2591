import MustacheHtml.Proofs.Markup.DocumentOrder

/-!
The normal form of markup. Building the forest of any tokens ends in a forest of that form, and it
gives back a forest of that form from the forest's own tokens. So recovery leaves alone what is
well formed, and what it has put right once stays as it is.
-/

namespace MustacheHtml

namespace TagName

/-- The name has no upper-case letter of ASCII. -/
def IsLower (name : String) : Prop :=
  ∀ c ∈ name.toList, c.isUpper = false

instance (name : String) : Decidable (IsLower name) :=
  decidable_of_iff (name.toList.all (!·.isUpper) = true) (by simp [IsLower])

theorem isUpper_iff {c : Char} : c.isUpper = true ↔ 65 ≤ c.toNat ∧ c.toNat ≤ 90 := by
  change decide (65 ≤ c.toNat ∧ c.toNat ≤ 90) = true ↔ _
  simp

theorem isUpper_toLower (c : Char) : c.toLower.isUpper = false := by
  rw [Bool.eq_false_iff, Ne, isUpper_iff, ← Char.toNat_val]
  unfold Char.toLower
  split
  · next hupper =>
      have hlow : 65 ≤ c.val.toNat := hupper.1
      have hhigh : c.val.toNat ≤ 90 := hupper.2
      rw [UInt32.toNat_add]
      show ¬ (_ ≤ (_ + 32) % 4294967296 ∧ (_ + 32) % 4294967296 ≤ 90)
      omega
  · next hother => simpa [UInt32.le_iff_toNat_le] using hother

theorem isLower_fold (name : String) : IsLower (fold name) := by
  intro c hc
  obtain ⟨written, -, rfl⟩ := List.mem_map.mp (by simpa [fold] using hc)
  exact isUpper_toLower written

theorem IsLower.fold_eq {name : String} (hlower : IsLower name) : fold name = name := by
  have hsame : name.toList.map Char.toLower = name.toList.map id := by
    refine List.map_congr_left fun c hc => ?_
    have hother : ¬ c.isUpper = true := by simp [hlower c hc]
    unfold Char.toLower
    rw [dif_neg fun hupper => hother (isUpper_iff.mpr ⟨hupper.1, hupper.2⟩), id]
  rw [fold, hsame, List.map_id, String.ofList_toList]

end TagName

namespace Markup

open MustacheHtml.Tree (StartsWithText)

/-- What recovery has seen to at an element: nothing is in it that a browser would have put
behind it. -/
structure Settled (tag : String) (children : Forest) : Prop where
  lower : TagName.IsLower tag
  void : TagName.isVoid tag = true → children = []
  kept : ∀ name attributes inner, .element name attributes inner ∈ children →
    closesImplicitly tag name = false

theorem settled_nil {tag : String} (hlower : TagName.IsLower tag) : Settled tag [] :=
  ⟨hlower, fun _ => rfl, nofun⟩

/-- No text is empty, no two texts are neighbours, and all elements are settled. That no mustache
is among the trees, and that the value of an attribute is one text, is in their type. -/
inductive NormalForm : Forest → Prop where
  | nil : NormalForm []
  | text {content : String} {rest : Forest} (hcontent : content ≠ "")
      (hapart : ¬ StartsWithText rest) (hrest : NormalForm rest) :
      NormalForm (.text content :: rest)
  | element (tag : String) (attributes : Attributes) {children rest : Forest}
      (hsettled : Settled tag children) (hchildren : NormalForm children)
      (hrest : NormalForm rest) : NormalForm (.element tag attributes children :: rest)

theorem NormalForm.reverseAux {left right : Forest} (hleft : NormalForm left)
    (hright : NormalForm right) (hapart : ¬ (StartsWithText left ∧ StartsWithText right)) :
    NormalForm (left.reverseAux right) := by
  induction hleft generalizing right with
  | nil => exact hright
  | text hcontent hnext _ ih =>
      refine ih (.text hcontent (fun hstarts => hapart ⟨trivial, hstarts⟩) hright) ?_
      exact fun hboth => hnext hboth.1
  | element tag attributes hsettled hchildren _ _ ih =>
      exact ih (.element tag attributes hsettled hchildren hright) And.right

theorem NormalForm.reverse {forest : Forest} (hnormal : NormalForm forest) :
    NormalForm forest.reverse :=
  hnormal.reverseAux .nil And.right

theorem NormalForm.addText {siblings : Forest} (hnormal : NormalForm siblings)
    (content : String) : NormalForm (addText content siblings) := by
  by_cases hstarts : StartsWithText siblings
  · cases hnormal with
    | nil => exact hstarts.elim
    | text hbefore hapart holder =>
        unfold Markup.addText
        split
        · exact .text hbefore hapart holder
        · exact .text (by simp [hbefore]) hapart holder
    | element tag attributes hsettled hchildren holder => exact hstarts.elim
  · rw [addText_of_apart hstarts]
    unfold withHeld
    split
    · exact hnormal
    · next hcontent => exact .text (by simpa using hcontent) hstarts hnormal

/-- The innermost open element stays open when the start tag comes. -/
def StaysOpen (frames : List Frame) (incoming : String) : Prop :=
  ∀ frame ∈ frames.head?, closesImplicitly frame.tag incoming = false

/-- None of the elements ends the one they stand in. -/
def Fits (forest : Forest) (frames : List Frame) : Prop :=
  ∀ tag attributes children, .element tag attributes children ∈ forest → StaysOpen frames tag

/-- The siblings read so far, newest first, in the innermost open element. -/
structure Level (siblings : Forest) (frames : List Frame) : Prop where
  normal : NormalForm siblings
  fits : Fits siblings frames

/-- Each open element could be closed now and would be settled, whatever it holds. -/
def Sound : List Frame → Prop
  | [] => True
  | frame :: outer =>
      TagName.IsLower frame.tag ∧ TagName.isVoid frame.tag = false ∧
        StaysOpen outer frame.tag ∧ Level frame.before outer ∧ Sound outer

/-- All that is being built is in normal form so far. -/
structure Builder.Sound (builder : Builder) : Prop where
  level : Level builder.siblings builder.openElements
  openElements : Markup.Sound builder.openElements

theorem Level.nil (frames : List Frame) : Level [] frames :=
  ⟨.nil, nofun⟩

theorem Level.element {siblings children : Forest} {frames : List Frame} {tag : String}
    (hlevel : Level siblings frames) (attributes : Attributes) (hsettled : Settled tag children)
    (hchildren : NormalForm children) (hstays : StaysOpen frames tag) :
    Level (.element tag attributes children :: siblings) frames := by
  refine ⟨.element tag attributes hsettled hchildren hlevel.normal, ?_⟩
  intro name others inner hmem
  rcases List.mem_cons.mp hmem with heq | hmem
  · cases heq
    exact hstays
  · exact hlevel.fits name others inner hmem

theorem Level.addText {siblings : Forest} {frames : List Frame} (hlevel : Level siblings frames)
    (content : String) : Level (addText content siblings) frames := by
  refine ⟨hlevel.normal.addText content, ?_⟩
  intro tag attributes children hmem
  refine hlevel.fits tag attributes children ?_
  unfold Markup.addText at hmem
  split at hmem
  · exact hmem
  · split at hmem <;> simpa using hmem

theorem Builder.Sound.close {siblings : Forest} {frame : Frame} {outer : List Frame}
    (hsound : Builder.Sound ⟨siblings, frame :: outer⟩) :
    Builder.Sound ⟨frame.close siblings, outer⟩ := by
  obtain ⟨hlower, hvoid, hstays, hbefore, houter⟩ := hsound.openElements
  have hsettled : Settled frame.tag siblings.reverse := by
    refine ⟨hlower, fun htrue => ?_, ?_⟩
    · rw [hvoid] at htrue
      contradiction
    · intro name attributes inner hmem
      exact hsound.level.fits name attributes inner (List.mem_reverse.mp hmem) frame rfl
  exact ⟨hbefore.element frame.attributes hsettled hsound.level.normal.reverse hstays, houter⟩

theorem sound_closeImplied {siblings : Forest} {frames : List Frame}
    (hsound : Builder.Sound ⟨siblings, frames⟩) (incoming : String) :
    (closeImplied incoming siblings frames).Sound ∧
      StaysOpen (closeImplied incoming siblings frames).openElements incoming := by
  induction frames generalizing siblings with
  | nil => exact ⟨hsound, nofun⟩
  | cons frame outer ih =>
      unfold closeImplied
      split
      · exact ih hsound.close
      · next hkept =>
          refine ⟨hsound, ?_⟩
          rintro innermost ⟨⟩
          simpa using hkept

theorem sound_closeThrough {siblings : Forest} {frames : List Frame}
    (hsound : Builder.Sound ⟨siblings, frames⟩) (name : String) :
    (closeThrough name siblings frames).Sound := by
  induction frames generalizing siblings with
  | nil => exact hsound
  | cons frame outer ih =>
      unfold closeThrough
      split
      · exact hsound.close
      · exact ih hsound.close

theorem normalForm_closeAll {siblings : Forest} {frames : List Frame}
    (hsound : Builder.Sound ⟨siblings, frames⟩) : NormalForm (closeAll siblings frames) := by
  induction frames generalizing siblings with
  | nil => exact hsound.level.normal.reverse
  | cons frame outer ih => exact ih hsound.close

theorem Builder.Sound.add {builder : Builder} (hsound : builder.Sound) (token : Token) :
    (builder.add token).Sound := by
  cases token with
  | startTag written attributes selfClosing =>
      obtain ⟨hopened, hstays⟩ := sound_closeImplied hsound (TagName.fold written)
      have hlower := TagName.isLower_fold written
      simp only [Builder.add]
      split
      · exact ⟨hopened.level.element attributes (settled_nil hlower) .nil hstays,
          hopened.openElements⟩
      · next hopens =>
          have hvoid : TagName.isVoid (TagName.fold written) = false := by
            simp only [Bool.or_eq_true, not_or, Bool.not_eq_true] at hopens
            exact hopens.2
          exact ⟨.nil _, hlower, hvoid, hstays, hopened.level, hopened.openElements⟩
  | endTag written =>
      simp only [Builder.add]
      split
      · exact sound_closeThrough hsound _
      · exact hsound
  | text content => exact ⟨hsound.level.addText content, hsound.openElements⟩
  | comment content => exact hsound
  | doctype content => exact hsound
  | error content => exact hsound

theorem sound_foldl_add {builder : Builder} (hsound : builder.Sound) (tokens : List Token) :
    (tokens.foldl Builder.add builder).Sound := by
  induction tokens generalizing builder with
  | nil => exact hsound
  | cons token rest ih => exact ih (hsound.add token)

theorem normalForm_forestOfTokens (tokens : List Token) : NormalForm (forestOfTokens tokens) :=
  have hstart : Builder.Sound {} := ⟨.nil [], trivial⟩
  normalForm_closeAll (sound_foldl_add hstart tokens)

mutual

/-- The tokens of a tree, without end tags for elements that can have no content. -/
def treeTokens : Tree → List Token
  | .text content => [.text content]
  | .element tag attributes children =>
      .startTag tag attributes false ::
        (forestTokens children ++ if TagName.isVoid tag then [] else [.endTag tag])

/-- The tokens of a forest that leaves no end tag out. -/
def forestTokens : List Tree → List Token
  | [] => []
  | tree :: rest => treeTokens tree ++ forestTokens rest

end

theorem closeImplied_of_staysOpen {incoming : String} {frames : List Frame}
    (hstays : StaysOpen frames incoming) (siblings : Forest) :
    closeImplied incoming siblings frames = ⟨siblings, frames⟩ := by
  cases frames with
  | nil => rfl
  | cons frame outer => rw [closeImplied, hstays frame rfl, if_neg (by decide)]

theorem Settled.fits {tag : String} {children : Forest} (hsettled : Settled tag children)
    (attributes : Attributes) (before : Forest) (outer : List Frame) :
    Fits children (⟨tag, attributes, before⟩ :: outer) := by
  rintro name others inner hmem frame ⟨⟩
  exact hsettled.kept name others inner hmem

theorem fits_nil (forest : Forest) : Fits forest [] := by
  rintro tag attributes children hmem frame ⟨⟩

theorem Fits.tail {tree : Tree} {forest : Forest} {frames : List Frame}
    (hfits : Fits (tree :: forest) frames) : Fits forest frames :=
  fun tag attributes children hmem =>
    hfits tag attributes children (List.mem_cons_of_mem _ hmem)

/-- The tokens of a forest in normal form put its trees after their older siblings and leave the
open elements as they are. -/
theorem foldl_add_forestTokens {forest : Forest} (hnormal : NormalForm forest)
    {siblings : Forest} {frames : List Frame}
    (hapart : ¬ (StartsWithText siblings ∧ StartsWithText forest)) (hfits : Fits forest frames) :
    (forestTokens forest).foldl Builder.add ⟨siblings, frames⟩ =
      ⟨forest.reverseAux siblings, frames⟩ := by
  induction hnormal generalizing siblings frames with
  | nil => rfl
  | @text content rest hcontent hnext hrest ih =>
      have hadd : Builder.add ⟨siblings, frames⟩ (.text content) =
          ⟨.text content :: siblings, frames⟩ := by
        rw [Builder.add, addText_of_apart fun hstarts => hapart ⟨hstarts, trivial⟩, withHeld,
          if_neg (by simpa using hcontent)]
      rw [forestTokens, treeTokens, List.singleton_append, List.foldl_cons, hadd]
      exact ih (fun hboth => hnext hboth.2) hfits.tail
  | @element tag attributes children rest hsettled hchildren hrest ihChildren ih =>
      have hstays : StaysOpen frames tag := hfits tag attributes children List.mem_cons_self
      have hwhole : (treeTokens (.element tag attributes children)).foldl Builder.add
          ⟨siblings, frames⟩ = ⟨.element tag attributes children :: siblings, frames⟩ := by
        rw [treeTokens, List.foldl_cons, Builder.add, hsettled.lower.fold_eq,
          closeImplied_of_staysOpen hstays]
        cases hvoid : TagName.isVoid tag with
        | true =>
            rw [hsettled.void hvoid]
            rfl
        | false =>
            -- Whatever the children are, they leave the element itself as the innermost open one.
            let frame : Frame := ⟨tag, attributes, siblings⟩
            have hinside : (forestTokens children).foldl Builder.add ⟨[], frame :: frames⟩ =
                ⟨children.reverse, frame :: frames⟩ :=
              ihChildren And.left (hsettled.fits attributes siblings frames)
            have hclosed : closeThrough tag children.reverse (frame :: frames) =
                ⟨.element tag attributes children :: siblings, frames⟩ := by
              rw [closeThrough, if_pos rfl, Frame.close, List.reverse_reverse]
            rw [List.foldl_append]
            simp only [Bool.false_or, Bool.false_eq_true, if_false]
            rw [hinside, List.foldl_cons, Builder.add, hsettled.lower.fold_eq, hclosed]
            simp [frame]
      rw [forestTokens, List.foldl_append, hwhole]
      exact ih And.left hfits.tail

theorem forestOfTokens_forestTokens {forest : Forest} (hnormal : NormalForm forest) :
    forestOfTokens (forestTokens forest) = forest := by
  rw [forestOfTokens, foldl_add_forestTokens hnormal And.left (fits_nil forest)]
  exact List.reverse_reverse forest

/-- Building the forest of any tokens ends in the normal form, and gives a forest of that form
back from its own tokens; so building once more changes nothing. -/
theorem forestOfTokens_normalizes : (∀ tokens, NormalForm (forestOfTokens tokens)) ∧
    (∀ forest, NormalForm forest → forestOfTokens (forestTokens forest) = forest) ∧
    ∀ tokens, forestOfTokens (forestTokens (forestOfTokens tokens)) = forestOfTokens tokens :=
  ⟨normalForm_forestOfTokens, fun _ => forestOfTokens_forestTokens,
    fun tokens => forestOfTokens_forestTokens (normalForm_forestOfTokens tokens)⟩

/-- A list whose second item is empty and whose first one ends in a line break. -/
def shortList : Forest :=
  [.element "ul" [("class", "short")]
      [.element "li" [] [.text "a", .element "br" [] []], .element "li" [] []],
    .text "b"]

theorem forestOfTokens_normalizes_shortList : NormalForm shortList ∧
    forestOfTokens (forestTokens shortList) = shortList := by
  have hbreak : Settled "br" [] := settled_nil (by decide)
  have hempty : Settled "li" [] := settled_nil (by decide)
  have hfirst : Settled "li" [.text "a", .element "br" [] []] := by
    refine ⟨by decide, nofun, fun name attributes inner hmem => ?_⟩
    obtain ⟨rfl, -⟩ : name = "br" ∧ _ := by simpa using hmem
    decide
  have hlist : Settled "ul" [.element "li" [] [.text "a", .element "br" [] []],
      .element "li" [] []] :=
    ⟨by decide, by decide, fun _ _ _ _ => rfl⟩
  have hnormal : NormalForm shortList :=
    .element "ul" _ hlist
      (.element "li" _ hfirst (.text (by decide) id (.element "br" _ hbreak .nil .nil))
        (.element "li" _ hempty .nil .nil))
      (.text (by decide) id .nil)
  exact ⟨hnormal, forestOfTokens_normalizes.2.1 shortList hnormal⟩

end Markup

end MustacheHtml
