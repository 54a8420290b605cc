import DoQwik.JsValues
import DoQwik.TextPatterns

/-! The mail that welcomes a new user. Its text is filled into a template by `replace`, which reads
the `$` of a replacement as a sign of its own. -/
namespace DoQwik
open JsValues TextPatterns

section Replace

def backquote : Char := Char.ofNat 96

def quote : Char := Char.ofNat 39

def backslash : Char := Char.ofNat 92

/-- What `$` followed by `d` stands for in a replacement, if it is for a string pattern: itself,
the match, or what is before or after it. -/
def dollarValue (matched before after : List Char) (d : Char) : Option (List Char) :=
  if d = '$' then some ['$']
  else if d = '&' then some matched
  else if d = backquote then some before
  else if d = quote then some after
  else none

/-- `GetSubstitution`. -/
def expand (matched before after : List Char) : List Char → List Char
  | [] => []
  | [c] => [c]
  | c :: d :: r =>
    match if c = '$' then dollarValue matched before after d else none with
    | some text => text ++ expand matched before after r
    | none => c :: expand matched before after (d :: r)

/-- `s.replace(pat, new)` for a nonempty string `pat`. -/
def replace (s pat new : String) : String :=
  String.ofList (replaceFirst pat.toList
    (fun before after => expand pat.toList before after new.toList) s.toList)

/-- `s.replace(/\\/g, '')`. -/
def withoutBackslashes (s : String) : String := String.ofList (s.toList.filter (· ≠ backslash))

end Replace

section Model

/-- A document of `dqw_email_templates`. -/
structure MailTemplate where
  mailType : String
  mailHeader : Option String
  mailBody : Option String
  mailFooter : Option String
  html : Option String

structure Mail where
  sender : String
  recipient : String
  bcc : String
  subject : String
  html : String
deriving DecidableEq

/-- A document of `dqw_email_log`. -/
structure EmailLog where
  email : String
  mailType : String
  respounse : String
  status : String
  creationDate : ℤ

/-- The templates, the mails that went out and their log. -/
structure MailStore where
  templates : List MailTemplate
  sent : List Mail := []
  emailLog : List EmailLog := []

/-- An error of the language, or one of the transport with the text that it is logged as. -/
inductive MailError where
  | typeError
  | transport (text : String)

/-- `JSON.stringify(error)`. -/
def MailError.stringify : MailError → String
  | typeError => "\x7b\x7d"
  | transport text => text

/-- The clock, and what goes wrong in the two calls of the transport. -/
structure MailEnv where
  now : ℤ
  verify : Option String := none
  sendMail : Option String := none

structure MailOptions where
  fullName : String
  email : String

def registrationType : String := "Registration Email"

def usernameMark : String := "\x7bUSERNAME\x7d"

def headerMark : String := "\x7bMAIL-HEADER\x7d"

def bodyMark : String := "\x7bMAIL-BODY\x7d"

def footerMark : String := "\x7bMAIL-FOOTER\x7d"

/-- The html of the mail. A body or a html that is missing has no `replace`, and a header or a
footer that is missing is replaced by its name in the language. -/
def registrationHtml (t : MailTemplate) (fullName : String) : Except MailError String :=
  match t.mailBody, t.html with
  | some mbData, some html =>
    let body := replace mbData usernameMark fullName
    let html := replace html headerMark (t.mailHeader.getD "undefined")
    let html := replace html bodyMark body
    let html := replace html footerMark (t.mailFooter.getD "undefined")
    .ok (withoutBackslashes html)
  | _, _ => .error .typeError

def registrationMail (o : MailOptions) (html : String) : Mail where
  sender := "\"DoQwik\" <info@doqwik.ng>"
  recipient := o.email
  bcc := "contact@doqwik.ng"
  subject := "Welcome to DoQwik Mr. " ++ o.fullName ++ " "
  html := html

/-- What the transport takes: the mail, or an error of a step before. -/
def composed (env : MailEnv) (o : MailOptions) (w : MailStore) : Except MailError Mail :=
  match w.templates.find? (·.mailType = registrationType) with
  | none => .error .typeError
  | some t => do
    let html ← registrationHtml t o.fullName
    match env.verify.or env.sendMail with
    | some e => .error (.transport e)
    | none => .ok (registrationMail o html)

def emailLogOf (env : MailEnv) (o : MailOptions) (respounse status : String) : EmailLog :=
  ⟨o.email, registrationType, trim respounse, status, env.now⟩

def sendNewUserRegistrationMailToUser (env : MailEnv) (o : MailOptions) (w : MailStore) :
    MailStore × Except MailError ℕ :=
  match composed env o w with
  | .ok mail =>
    ({ w with
        sent := w.sent ++ [mail]
        emailLog := w.emailLog ++ [emailLogOf env o
          "Your email sent to user for new user registration." "Success"] }, .ok 1)
  | .error e =>
    ({ w with emailLog := w.emailLog ++ [emailLogOf env o e.stringify "Fail"] }, .error e)

end Model

section Inert

def isSpecial (d : Char) : Bool := d = '$' || d = '&' || d = backquote || d = quote

/-- No `$` stands before a letter that gives it a meaning. -/
def inert : List Char → Bool
  | c :: d :: r => !(c = '$' && isSpecial d) && inert (d :: r)
  | _ => true

theorem dollarValue_eq_none {d : Char} (h : isSpecial d = false)
    (matched before after : List Char) :
    dollarValue matched before after d = none := by
  simp only [isSpecial, Bool.or_eq_false_iff, decide_eq_false_iff_not] at h
  obtain ⟨⟨⟨hdollar, hand⟩, hback⟩, hquote⟩ := h
  rw [dollarValue, if_neg hdollar, if_neg hand, if_neg hback, if_neg hquote]

theorem expand_eq_self {text : List Char} (h : inert text = true)
    (matched before after : List Char) :
    expand matched before after text = text := by
  induction text with
  | nil => rfl
  | cons c text ih =>
    cases text with
    | nil => rfl
    | cons d r =>
      rw [inert, Bool.and_eq_true] at h
      have hnone : (if c = '$' then dollarValue matched before after d else none) = none := by
        by_cases hc : c = '$'
        · rw [if_pos hc]
          refine dollarValue_eq_none ?_ matched before after
          simpa [hc] using h.1
        · rw [if_neg hc]
      rw [expand, hnone]
      dsimp only
      rw [ih h.2]

end Inert

section Literal

/-- The texts of a complete template. -/
structure MailTexts where
  header : String
  body : String
  footer : String
  html : String

def MailTexts.template (x : MailTexts) : MailTemplate :=
  ⟨registrationType, some x.header, some x.body, some x.footer, some x.html⟩

def marks (mark : String) (s : List Char) : ℕ := occurrences mark.toList s []

/-- Every mark is there once, and only where it is expected. -/
structure WellPlaced (x : MailTexts) : Prop where
  html : ∀ mark ∈ [headerMark, bodyMark, footerMark], marks mark x.html.toList = 1
  htmlName : marks usernameMark x.html.toList = 0
  bodyName : marks usernameMark x.body.toList = 1
  body : ∀ mark ∈ [headerMark, bodyMark, footerMark], marks mark x.body.toList = 0
  others : ∀ mark ∈ [usernameMark, headerMark, bodyMark, footerMark],
    marks mark x.header.toList = 0 ∧ marks mark x.footer.toList = 0

inductive Slot where
  | header
  | body
  | footer
deriving DecidableEq

def slots : List Slot := [.header, .body, .footer]

def Slot.mark : Slot → List Char
  | header => headerMark.toList
  | body => bodyMark.toList
  | footer => footerMark.toList

def contents (header body footer : List Char) : Slot → List Char
  | .header => header
  | .body => body
  | .footer => footer

/-- What is left of a text without its backslashes. -/
def visible (text : List Char) : List Char := text.filter (· ≠ backslash)

namespace MailTexts

variable (x : MailTexts) (fullName : String)

/-- The html, taken apart at its marks. -/
def pieces : List (Token Char Slot) := tokens slots Slot.mark x.html.toList

/-- The body with the characters of the name in the place of its mark. -/
def filledBody : List Char :=
  render (fun _ => fullName.toList) (tokens [()] (fun _ => usernameMark.toList) x.body.toList)

def texts : Slot → List Char := contents x.header.toList (x.filledBody fullName) x.footer.toList

def literalText : List Char := render (x.texts fullName) x.pieces

/-- The html with its marks replaced as they stand, and then without backslashes. -/
def literal : String := withoutBackslashes (String.ofList (x.literalText fullName))

def before (content : Slot → List Char) (k : Slot) : List Char := renderBefore content k x.pieces

def after (content : Slot → List Char) (k : Slot) : List Char := renderAfter content k x.pieces

/-- The header, the body and the footer as `$` makes them read between `before` and `after`. -/
def readHeader (before after : List Char) : List Char :=
  expand headerMark.toList before after x.header.toList

def readBody (before after : List Char) : List Char :=
  expand bodyMark.toList before after (replaceFirst usernameMark.toList (fun before after =>
    expand usernameMark.toList before after fullName.toList) x.body.toList)

def readFooter (before after : List Char) : List Char :=
  expand footerMark.toList before after x.footer.toList

/-- The texts as they read in the places of their marks, one after the other. -/
def headerHere : List Char := x.readHeader (x.before Slot.mark .header) (x.after Slot.mark .header)

def headed : Slot → List Char := contents x.headerHere bodyMark.toList footerMark.toList

def bodyHere : List Char := x.readBody fullName (x.before x.headed .body) (x.after x.headed .body)

def bodied : Slot → List Char := contents x.headerHere (x.bodyHere fullName) footerMark.toList

def footerHere : List Char :=
  x.readFooter (x.before (x.bodied fullName) .footer) (x.after (x.bodied fullName) .footer)

def read : Slot → List Char :=
  contents x.headerHere (x.bodyHere fullName) (x.footerHere fullName)

def sentText : List Char :=
  replaceFirst footerMark.toList x.readFooter
    (replaceFirst bodyMark.toList (x.readBody fullName)
      (replaceFirst headerMark.toList x.readHeader x.html.toList))

def changed : List Slot :=
  slots.filter fun k => visible (x.read fullName k) ≠ visible (x.texts fullName k)

/-- What comes out different makes up for each other. -/
def evensOut (text : List Char) : Bool := visible text = visible (x.literalText fullName)

/-- When the mail has its texts as they stand. If the body and the footer meet the marks of the
html, none of the texts may read in another way: a single one always shows, and two can make up for
each other. A mark of the footer that comes with another text before its own is met first. The
footer goes there, and its own mark stays: the two have to come out the same in either order. -/
def staysLiteral : Bool :=
  match splitFirst bodyMark.toList (x.before x.headed .body),
    splitFirst footerMark.toList (x.before (x.bodied fullName) .footer) with
  | none, none =>
    match x.changed fullName with
    | [] => true
    | [_] => false
    | _ => x.evensOut fullName (render (x.read fullName) x.pieces)
  | none, some (b, a) =>
    let rest := a ++ (footerMark.toList ++ x.after (x.bodied fullName) .footer)
    if x.headerHere = x.header.toList ∧ x.bodyHere fullName = x.filledBody fullName then
      visible (x.readFooter b rest ++ (a ++ footerMark.toList)) =
        visible (footerMark.toList ++ (a ++ x.footer.toList))
    else x.evensOut fullName (b ++ (x.readFooter b rest ++ rest))
  | some (b, a), _ =>
    -- The header has made a mark of the body, and the one of the html stays.
    let rest := a ++ (bodyMark.toList ++ x.after x.headed .body)
    x.evensOut fullName
      (replaceFirst footerMark.toList x.readFooter (b ++ (x.readBody fullName b rest ++ rest)))

end MailTexts

def braced (name : List Char) : List Char := Char.ofNat 123 :: (name ++ [Char.ofNat 125])

theorem toList_usernameMark :
    usernameMark.toList = braced ['U', 'S', 'E', 'R', 'N', 'A', 'M', 'E'] := String.toList_ofList

theorem toList_headerMark :
    headerMark.toList = braced ['M', 'A', 'I', 'L', '-', 'H', 'E', 'A', 'D', 'E', 'R'] :=
  String.toList_ofList

theorem toList_bodyMark :
    bodyMark.toList = braced ['M', 'A', 'I', 'L', '-', 'B', 'O', 'D', 'Y'] := String.toList_ofList

theorem toList_footerMark :
    footerMark.toList = braced ['M', 'A', 'I', 'L', '-', 'F', 'O', 'O', 'T', 'E', 'R'] :=
  String.toList_ofList

/-- A mark has a brace only at its beginning and its end. -/
theorem head_notMem_tail {name name' : List Char} (h : Char.ofNat 123 ∉ name') :
    ∀ c ∈ (braced name).head?, c ∉ (braced name').tail := by
  intro c hc
  cases hc
  have hne : Char.ofNat 123 ≠ Char.ofNat 125 := by decide
  simpa [braced, hne] using h

/-- Different names in braces can be told apart. -/
theorem separable_braced {κ : Type} {keys : List κ} {mark : κ → List Char} (name : κ → List Char)
    (hmark : ∀ k ∈ keys, mark k = braced (name k)) (hname : ∀ k ∈ keys, Char.ofNat 123 ∉ name k)
    (hdiffer : ∀ j ∈ keys, ∀ k ∈ keys, j ≠ k → ¬ braced (name j) <+: braced (name k)) :
    Separable keys mark where
  nonempty k hk := by
    rw [hmark k hk]
    exact List.cons_ne_nil _ _
  alone k hk := by
    rw [hmark k hk]
    exact head_notMem_tail (hname k hk)
  apart j hj k hk hjk := by
    rw [hmark j hj, hmark k hk]
    exact ⟨head_notMem_tail (hname k hk), head_notMem_tail (hname j hj), hdiffer j hj k hk hjk,
      hdiffer k hk j hj hjk.symm⟩

theorem separable_slots : Separable slots Slot.mark := by
  refine separable_braced (fun
    | .header => ['M', 'A', 'I', 'L', '-', 'H', 'E', 'A', 'D', 'E', 'R']
    | .body => ['M', 'A', 'I', 'L', '-', 'B', 'O', 'D', 'Y']
    | .footer => ['M', 'A', 'I', 'L', '-', 'F', 'O', 'O', 'T', 'E', 'R']) ?_ ?_ ?_
  · intro k _
    cases k with
    | header => exact toList_headerMark
    | body => exact toList_bodyMark
    | footer => exact toList_footerMark
  · decide
  · decide

theorem separable_username : Separable [()] fun _ => usernameMark.toList :=
  separable_braced (fun _ => ['U', 'S', 'E', 'R', 'N', 'A', 'M', 'E'])
    (fun _ _ => toList_usernameMark) (by decide) (by decide)

theorem mem_slots (k : Slot) : k ∈ slots := by
  cases k with
  | header | body | footer => decide

theorem registrationHtml_eq_sentText (x : MailTexts) (fullName : String) :
    registrationHtml x.template fullName =
      .ok (String.ofList (visible (x.sentText fullName))) := by
  simp only [registrationHtml, MailTexts.template, replace, withoutBackslashes,
    String.toList_ofList]
  rfl

theorem literal_eq_literalText (x : MailTexts) (fullName : String) :
    x.literal fullName = String.ofList (visible (x.literalText fullName)) := by
  rw [MailTexts.literal, withoutBackslashes, String.toList_ofList]
  rfl

theorem visible_append (s t : List Char) : visible (s ++ t) = visible s ++ visible t :=
  List.filter_append _ _

theorem visible_render_congr {content content' : Slot → List Char} {t : List (Token Char Slot)}
    (h : ∀ k, .mark k ∈ t → visible (content k) = visible (content' k)) :
    visible (render content t) = visible (render content' t) := by
  induction t with
  | nil => rfl
  | cons a t ih =>
    have hrest := ih fun k hk => h k (List.mem_cons_of_mem _ hk)
    cases a with
    | letter c =>
      change visible ([c] ++ render content t) = visible ([c] ++ render content' t)
      rw [visible_append, visible_append, hrest]
    | mark k => rw [render, render, visible_append, visible_append, hrest, h k List.mem_cons_self]

section Places

variable {x : MailTexts} {fullName : String} {k : Slot} {c c' : Slot → List Char}

theorem exists_slot (hx : WellPlaced x) (k : Slot) :
    ∃ p q, x.pieces = p ++ .mark k :: q ∧ .mark k ∉ p ∧ .mark k ∉ q := by
  refine exists_place separable_slots (mem_slots k) ?_
  cases k with
  | header | body | footer => exact hx.html _ (by simp)

theorem render_pieces (hx : WellPlaced x) (c : Slot → List Char) (k : Slot) :
    render c x.pieces = x.before c k ++ (c k ++ x.after c k) := by
  obtain ⟨p, q, hpq, hp, -⟩ := exists_slot hx k
  rw [MailTexts.before, MailTexts.after, hpq]
  exact render_place c hp

/-- What surrounds a mark does not depend on what is in its place. -/
theorem around_congr (hx : WellPlaced x) (h : ∀ j, j ≠ k → c j = c' j) :
    x.before c k = x.before c' k ∧ x.after c k = x.after c' k := by
  obtain ⟨p, q, hpq, hp, hq⟩ := exists_slot hx k
  rw [MailTexts.before, MailTexts.after, MailTexts.before, MailTexts.after, hpq,
    renderBefore_place _ hp, renderBefore_place _ hp, renderAfter_place _ hp,
    renderAfter_place _ hp]
  exact ⟨render_congr fun j hj => h j fun hjk => hp (hjk ▸ hj),
    render_congr fun j hj => h j fun hjk => hq (hjk ▸ hj)⟩

theorem visible_around_congr (hx : WellPlaced x)
    (h : ∀ j, j ≠ k → visible (c j) = visible (c' j)) :
    visible (x.before c k) = visible (x.before c' k) ∧
      visible (x.after c k) = visible (x.after c' k) := by
  obtain ⟨p, q, hpq, hp, hq⟩ := exists_slot hx k
  rw [MailTexts.before, MailTexts.after, MailTexts.before, MailTexts.after, hpq,
    renderBefore_place _ hp, renderBefore_place _ hp, renderAfter_place _ hp,
    renderAfter_place _ hp]
  exact ⟨visible_render_congr fun j hj => h j fun hjk => hp (hjk ▸ hj),
    visible_render_congr fun j hj => h j fun hjk => hq (hjk ▸ hj)⟩

/-- A replace that meets the mark of the html puts the text into its place. -/
theorem replace_own (hx : WellPlaced x) (hmark : c k = k.mark)
    (hown : splitFirst k.mark (x.before c k) = none)
    (hothers : ∀ j, j ≠ k → c' j = c j) {new : List Char → List Char → List Char}
    (hnew : c' k = new (x.before c k) (x.after c k)) :
    replaceFirst k.mark new (render c x.pieces) = render c' x.pieces := by
  obtain ⟨hbefore, hafter⟩ := around_congr hx hothers
  rw [render_pieces hx c k, hmark,
    replaceFirst_of_none (separable_slots.nonempty k (mem_slots k))
      (separable_slots.alone k (mem_slots k)) hown,
    render_pieces hx c' k, hbefore, hafter, hnew]

/-- One that meets another mark leaves the mark of the html. -/
theorem replace_stray (hx : WellPlaced x) (hmark : c k = k.mark) {b a : List Char}
    (hstray : splitFirst k.mark (x.before c k) = some (b, a))
    (new : List Char → List Char → List Char) :
    replaceFirst k.mark new (render c x.pieces) =
      b ++ (new b (a ++ (k.mark ++ x.after c k)) ++ (a ++ (k.mark ++ x.after c k))) := by
  rw [render_pieces hx c k, hmark, replaceFirst_of_some hstray]

theorem replace_header (hx : WellPlaced x) :
    replaceFirst headerMark.toList x.readHeader x.html.toList = render x.headed x.pieces := by
  have hhtml : render Slot.mark x.pieces = x.html.toList := render_tokens separable_slots _
  have hown : splitFirst Slot.header.mark (x.before Slot.mark .header) = none := by
    have honce : occurrences Slot.header.mark x.html.toList [] = 1 := hx.html headerMark (by simp)
    rw [← hhtml, render_pieces hx Slot.mark .header] at honce
    exact splitFirst_eq_none_of_once (separable_slots.nonempty .header (mem_slots _))
      (separable_slots.alone .header (mem_slots _)) honce
  rw [← hhtml]
  refine replace_own (k := .header) hx rfl hown (fun j hj => ?_) rfl
  cases j with
  | header => exact absurd rfl hj
  | body | footer => rfl

theorem replace_body (hx : WellPlaced x)
    (hown : splitFirst bodyMark.toList (x.before x.headed .body) = none) :
    replaceFirst bodyMark.toList (x.readBody fullName)
      (replaceFirst headerMark.toList x.readHeader x.html.toList) =
        render (x.bodied fullName) x.pieces := by
  rw [replace_header hx]
  refine replace_own (c := x.headed) (k := .body) hx rfl hown (fun j hj => ?_) rfl
  cases j with
  | body => exact absurd rfl hj
  | header | footer => rfl

theorem sentText_of_own (hx : WellPlaced x)
    (hbody : splitFirst bodyMark.toList (x.before x.headed .body) = none)
    (hfooter : splitFirst footerMark.toList (x.before (x.bodied fullName) .footer) = none) :
    x.sentText fullName = render (x.read fullName) x.pieces := by
  rw [MailTexts.sentText, replace_body hx hbody]
  refine replace_own (c := x.bodied fullName) (k := .footer) hx rfl hfooter (fun j hj => ?_) rfl
  cases j with
  | footer => exact absurd rfl hj
  | header | body => rfl

theorem same_of_notMem_changed (h : k ∉ x.changed fullName) :
    visible (x.read fullName k) = visible (x.texts fullName k) := by
  simpa [MailTexts.changed, mem_slots] using h

/-- A text that alone reads in another way shows. -/
theorem visible_ne_of_changed (hx : WellPlaced x) (h : x.changed fullName = [k]) :
    visible (render (x.read fullName) x.pieces) ≠ visible (x.literalText fullName) := by
  have hk : visible (x.read fullName k) ≠ visible (x.texts fullName k) := by
    have hmem : k ∈ x.changed fullName := by rw [h]; exact List.mem_singleton_self k
    simpa [MailTexts.changed, mem_slots] using hmem
  have hothers : ∀ j, j ≠ k → visible (x.read fullName j) = visible (x.texts fullName j) := by
    intro j hj
    refine same_of_notMem_changed ?_
    rw [h, List.mem_singleton]
    exact hj
  obtain ⟨hbefore, hafter⟩ := visible_around_congr hx hothers
  rw [MailTexts.literalText, render_pieces hx _ k, render_pieces hx (x.texts fullName) k,
    visible_append, visible_append, visible_append, visible_append, hbefore, hafter]
  intro heq
  exact hk (List.append_cancel_right (List.append_cancel_left heq))

theorem sentText_of_strayFooter (hx : WellPlaced x)
    (hbody : splitFirst bodyMark.toList (x.before x.headed .body) = none) {b a : List Char}
    (hfooter : splitFirst footerMark.toList (x.before (x.bodied fullName) .footer) =
      some (b, a)) :
    let rest := a ++ (footerMark.toList ++ x.after (x.bodied fullName) .footer)
    x.sentText fullName = b ++ (x.readFooter b rest ++ rest) := by
  rw [MailTexts.sentText, replace_body hx hbody]
  exact replace_stray (c := x.bodied fullName) (k := .footer) hx rfl hfooter x.readFooter

theorem sentText_of_strayBody (hx : WellPlaced x) {b a : List Char}
    (hbody : splitFirst bodyMark.toList (x.before x.headed .body) = some (b, a)) :
    let rest := a ++ (bodyMark.toList ++ x.after x.headed .body)
    x.sentText fullName =
      replaceFirst footerMark.toList x.readFooter (b ++ (x.readBody fullName b rest ++ rest)) := by
  have hstray := replace_stray (c := x.headed) (k := .body) hx rfl hbody (x.readBody fullName)
  rw [MailTexts.sentText, replace_header hx]
  exact congrArg (replaceFirst footerMark.toList x.readFooter) hstray

/-- The footer goes to a mark before its own, and nothing else has changed. -/
theorem visible_sentText_of_stray (hx : WellPlaced x)
    (hbody : splitFirst bodyMark.toList (x.before x.headed .body) = none) {b a : List Char}
    (hfooter : splitFirst footerMark.toList (x.before (x.bodied fullName) .footer) = some (b, a))
    (hheader : x.headerHere = x.header.toList)
    (hread : x.bodyHere fullName = x.filledBody fullName) :
    visible (x.sentText fullName) = visible (x.literalText fullName) ↔
      visible (x.readFooter b (a ++ (footerMark.toList ++ x.after (x.bodied fullName) .footer)) ++
          (a ++ footerMark.toList)) =
        visible (footerMark.toList ++ (a ++ x.footer.toList)) := by
  have hothers : ∀ j, j ≠ Slot.footer → x.texts fullName j = x.bodied fullName j := by
    intro j hj
    cases j with
    | header => exact hheader.symm
    | body => exact hread.symm
    | footer => exact absurd rfl hj
  obtain ⟨hbefore, hafter⟩ := around_congr hx hothers
  rw [sentText_of_strayFooter hx hbody hfooter, MailTexts.literalText, render_pieces hx _ .footer,
    hbefore, hafter, splitFirst_eq_some hfooter]
  change _ = visible (b ++ (footerMark.toList ++ a) ++ (x.footer.toList ++ _)) ↔ _
  simp only [visible_append, List.append_assoc, List.append_cancel_left_eq]
  simp only [← List.append_assoc, List.append_cancel_right_eq]

theorem visible_eq_iff (hx : WellPlaced x) (fullName : String) :
    visible (x.sentText fullName) = visible (x.literalText fullName) ↔
      x.staysLiteral fullName = true := by
  have heven {text : List Char} (h : x.sentText fullName = text) :
      visible (x.sentText fullName) = visible (x.literalText fullName) ↔
        x.evensOut fullName text = true := by
    rw [h]
    exact decide_eq_true_iff.symm
  unfold MailTexts.staysLiteral
  cases hbody : splitFirst bodyMark.toList (x.before x.headed .body) with
  | some spot => exact heven (sentText_of_strayBody hx hbody)
  | none =>
    cases hfooter : splitFirst footerMark.toList (x.before (x.bodied fullName) .footer) with
    | some spot =>
      dsimp only
      split
      · next hreads =>
        rw [visible_sentText_of_stray hx hbody hfooter hreads.1 hreads.2]
        exact decide_eq_true_iff.symm
      · exact heven (sentText_of_strayFooter hx hbody hfooter)
    | none =>
      have hsent := sentText_of_own hx hbody hfooter
      cases hchanged : x.changed fullName with
      | nil =>
        refine iff_of_true ?_ rfl
        rw [hsent]
        refine visible_render_congr fun k _ => same_of_notMem_changed ?_
        rw [hchanged]
        exact List.not_mem_nil
      | cons k ks =>
        cases ks with
        | nil =>
          refine iff_of_false ?_ (by simp)
          rw [hsent]
          exact visible_ne_of_changed hx hchanged
        | cons j js => exact heven hsent

theorem replace_username (hx : WellPlaced x) (fullName : String) :
    replaceFirst usernameMark.toList (fun _ _ => fullName.toList) x.body.toList =
      x.filledBody fullName := by
  have hmem : () ∈ [()] := List.mem_singleton_self ()
  obtain ⟨p, q, hpq, hp, hq⟩ := exists_place separable_username hmem hx.bodyName
  have hbody := render_tokens separable_username x.body.toList
  have honce := hx.bodyName
  have hplain {t : List (Token Char Unit)} (ht : .mark () ∉ t) :
      render (fun _ => usernameMark.toList) t = render (fun _ => fullName.toList) t :=
    render_congr fun _ hk => absurd hk ht
  rw [hpq, render_append, render] at hbody
  rw [marks, ← hbody] at honce
  have hfirst := splitFirst_eq_none_of_once (separable_username.nonempty () hmem)
    (separable_username.alone () hmem) honce
  rw [← hbody, replaceFirst_of_none (separable_username.nonempty () hmem)
    (separable_username.alone () hmem) hfirst, MailTexts.filledBody, hpq, render_append, render,
    hplain hp, hplain hq]

/-- Where no `$` has a meaning and the header makes no mark of the body, all depends on the mark
that the footer meets. -/
theorem staysLiteral_iff_of_inert (hx : WellPlaced x) (hheader : inert x.header.toList = true)
    (hname : inert fullName.toList = true) (hbody : inert (x.filledBody fullName) = true)
    (hfooter : inert x.footer.toList = true)
    (hown : splitFirst bodyMark.toList (x.before x.headed .body) = none) :
    x.staysLiteral fullName = true ↔ ∀ b a,
      splitFirst footerMark.toList (x.before (x.bodied fullName) .footer) = some (b, a) →
        visible (x.footer.toList ++ (a ++ footerMark.toList)) =
          visible (footerMark.toList ++ (a ++ x.footer.toList)) := by
  have hreadHeader : x.headerHere = x.header.toList := expand_eq_self hheader _ _ _
  have hreadBody : x.bodyHere fullName = x.filledBody fullName := by
    simp only [MailTexts.bodyHere, MailTexts.readBody, expand_eq_self hname]
    rw [replace_username hx, expand_eq_self hbody]
  have hreadFooter (b a : List Char) : x.readFooter b a = x.footer.toList :=
    expand_eq_self hfooter _ _ _
  have hsame : x.changed fullName = [] := by
    have hread : x.read fullName = x.texts fullName := by
      rw [MailTexts.read, hreadHeader, hreadBody, MailTexts.footerHere, hreadFooter]
      rfl
    simp [MailTexts.changed, hread]
  unfold MailTexts.staysLiteral
  rw [hown, hsame]
  cases hmet : splitFirst footerMark.toList (x.before (x.bodied fullName) .footer) with
  | none => simp
  | some spot =>
    dsimp only
    rw [if_pos ⟨hreadHeader, hreadBody⟩, hreadFooter, decide_eq_true_iff]
    constructor
    · rintro h _ _ ⟨⟩
      exact h
    · exact fun h => h spot.1 spot.2 rfl

end Places

end Literal

section Sending

variable (env : MailEnv) (o : MailOptions) (w : MailStore) (x : MailTexts)

/-- The mail goes out with its texts as they stand. -/
def SendsLiterally : Prop :=
  (sendNewUserRegistrationMailToUser env o w).1.sent =
    w.sent ++ [registrationMail o (x.literal o.fullName)]

/-- The template is found, and the transport takes the mail. -/
structure Deliverable : Prop where
  template : w.templates.find? (·.mailType = registrationType) = some x.template
  verify : env.verify = none
  sendMail : env.sendMail = none

variable {env o w x}

theorem sent_eq (h : Deliverable env w x) {html : String}
    (hhtml : registrationHtml x.template o.fullName = .ok html) :
    (sendNewUserRegistrationMailToUser env o w).1.sent = w.sent ++ [registrationMail o html] := by
  have hcomposed : composed env o w = .ok (registrationMail o html) := by
    rw [composed, h.template]
    dsimp only
    rw [hhtml, h.verify, h.sendMail]
    rfl
  rw [sendNewUserRegistrationMailToUser, hcomposed]

def sampleTexts : MailTexts where
  header := "Hi"
  body := "Dear \x7bUSERNAME\x7d"
  footer := "Bye"
  html := "\x7bMAIL-HEADER\x7d\x7bMAIL-BODY\x7d\x7bMAIL-FOOTER\x7d"

def sampleStore : MailStore := { templates := [sampleTexts.template] }

-- The mark of the footer comes first, so that one in the name is not met.
example : MailTexts.staysLiteral { sampleTexts with
    html := "\x7bMAIL-FOOTER\x7d\x7bMAIL-HEADER\x7d\x7bMAIL-BODY\x7d" } footerMark = true := by
  decide +kernel

def evenTexts : MailTexts where
  header := "$$"
  body := "\x7bUSERNAME\x7d\x27"
  footer := "Bye"
  html := "\x7bMAIL-FOOTER\x7d\x7bMAIL-HEADER\x7d\x7bMAIL-BODY\x7d$$\x27"

-- The dollar sign that the header loses comes back with the body.
example : evenTexts.changed "$" = [.header, .body] ∧ evenTexts.staysLiteral "$" = true := by
  decide +kernel

theorem deliverable_sample : Deliverable { now := 0 } sampleStore sampleTexts :=
  ⟨rfl, rfl, rfl⟩

theorem wellPlaced_sample : WellPlaced sampleTexts :=
  ⟨by decide +kernel, by decide +kernel, by decide +kernel, by decide +kernel, by decide +kernel⟩

def sampleHtml (fullName : String) : List String :=
  (sendNewUserRegistrationMailToUser { now := 0 } ⟨fullName, "ada@example"⟩ sampleStore).1.sent.map
    Mail.html

end Sending

end DoQwik
