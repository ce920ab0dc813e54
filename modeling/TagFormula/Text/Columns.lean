import TagFormula.Text.ClusterTable
import TagFormula.Text.ColumnTable

/-!
# Display columns

How many columns of a screen a text takes. A character by itself takes none, one or two. Some
neighbours change that: selectors switch a character to its emoji or its text form, joiners and
skin tones merge emoji into one, and in some scripts letters form one sign together. The text is
therefore measured from its end, and `Following` keeps what matters of the characters already
measured.
-/

namespace TagFormula.Text

/-- The end of a sign that several characters form together. -/
inductive SignEnd where
  | lineFeed
  /-- An alef, perhaps with marks before it; a lam before it forms one sign with it. -/
  | alef
  | lamed
  | joinedLamed
  | khmerLetter
  | buginese
  | joinedBuginese
  | markedBuginese
  | tifinagh
  | joinedTifinagh
  /-- A letter with a consonant joiner before it. -/
  | boundTifinagh
  | lisuTone
  | turkic
  | joinedTurkic
  | kiratVowel
  | kiratDiphthong
  deriving DecidableEq

/-- What stands right after a character, as far as the character's own columns depend on it. -/
inductive Following where
  | plain
  /-- A selector of the emoji form. The flag tells whether a joined emoji comes after it. -/
  | emojiSelector (joined : Bool)
  /-- A selector of the text form. -/
  | textSelector
  /-- A skin tone. -/
  | skinTone
  /-- An emoji. -/
  | emoji
  /-- A joiner with an emoji after it. -/
  | joinedEmoji
  | sign (part : SignEnd)
  deriving DecidableEq

/-- Nothing is drawn for the character by itself. -/
def isInvisible (c : Char) : Bool :=
  inRanges ignorableRanges c ||
    (inRanges extendRanges c && !inRanges [(0x1F3FB, 0x1F3FF)] c) ||
    inRanges [(0x0605, 0x0605), (0x070F, 0x070F), (0x0890, 0x0891), (0x08E2, 0x08E2),
      (0x1160, 0x11FF), (0xA8FA, 0xA8FA), (0xD7B0, 0xD7C6), (0xD7CB, 0xD7FB)] c

def charColumns (c : Char) : Nat :=
  if c.toNat ≤ 0xA0 then 1
  else if c = '\u115f' || c = '\u17a4' then 2
  else if c = '\u17d8' then 3
  else if c = '\u2d7f' then 1
  else if isInvisible c then 0
  else if inRanges wideRanges c then 2
  else 1

/-- The sign that a character can end. -/
def SignEnd.ofChar? (c : Char) : Option SignEnd :=
  let ends : List (List (Nat × Nat) × SignEnd) := [
    (alefRanges, .alef), ([(0x05DC, 0x05DC)], .lamed), (khmerSubscriptRanges, .khmerLetter),
    ([(0x1A10, 0x1A10)], .buginese), (tifinaghRanges, .tifinagh), ([(0xA4FC, 0xA4FD)], .lisuTone),
    ([(0x10C03, 0x10C03)], .turkic), ([(0x16D67, 0x16D67)], .kiratVowel),
    ([(0x16D68, 0x16D68)], .kiratDiphthong)]
  (ends.find? fun (ranges, _) => inRanges ranges c).map (·.2)

/-- What a character is to the one before it. -/
def Following.ofChar (c : Char) : Following :=
  if c = '\n' then .sign .lineFeed
  else if c.toNat ≤ 0xA0 then .plain
  else if c = '\ufe0f' then .emojiSelector false
  else if c = '\ufe0e' then .textSelector
  else if inRanges [(0x1F3FB, 0x1F3FF)] c then .skinTone
  else if inRanges emojiByDefaultRanges c then .emoji
  else (SignEnd.ofChar? c).elim .plain .sign

def joiner : Char := '\u200d'

/-- The columns of a text that starts with `c` if it takes `total` columns without `c` and `c` goes
on with the sign that the text starts with; and what then stands there. -/
def SignEnd.extend? (part : SignEnd) (c : Char) (total : Nat) : Option (Nat × Following) :=
  match part with
  | lineFeed => if c = '\r' then some (total, .plain) else none
  | alef =>
    if inRanges lamRanges c then some (total, .plain)
    else if isInvisible c && !inRanges ignorableRanges c then some (total, .sign .alef)
    else none
  | lamed => if c = joiner then some (total, .sign .joinedLamed) else none
  | joinedLamed => if c = '\u05d0' then some (total, .plain) else none
  | khmerLetter => if c = '\u17d2' then some (total - 1, .plain) else none
  | buginese => if c = joiner then some (total, .sign .joinedBuginese) else none
  | joinedBuginese => if c = '\u1a17' then some (total, .sign .markedBuginese) else none
  | markedBuginese => if c = '\u1a15' then some (total, .plain) else none
  | tifinagh =>
    if c = joiner then some (total, .sign .joinedTifinagh)
    else if c = '\u2d7f' then some (total + 1, .sign .boundTifinagh)
    else none
  | joinedTifinagh => if inRanges tifinaghRanges c then some (total, .plain) else none
  | boundTifinagh => if inRanges tifinaghRanges c then some (total - 1, .plain) else none
  | lisuTone => if inRanges [(0xA4F8, 0xA4FB)] c then some (total, .plain) else none
  | turkic => if c = joiner then some (total, .sign .joinedTurkic) else none
  | joinedTurkic => if inRanges [(0x10C32, 0x10C32)] c then some (total, .plain) else none
  | kiratVowel =>
    if inRanges [(0x16D63, 0x16D63), (0x16D69, 0x16D69)] c then some (total, .plain)
    else if inRanges [(0x16D67, 0x16D67)] c then some (total, .sign .kiratDiphthong)
    else none
  | kiratDiphthong => if inRanges [(0x16D63, 0x16D63)] c then some (total, .plain) else none

/-- The columns of a text that starts with `c` if it takes `total` columns without `c` and `next`
stands there; and what `c` is to the character before it. -/
def columnsBefore (c : Char) (next : Following) (total : Nat) : Nat × Following :=
  let alone := (charColumns c + total, Following.ofChar c)
  match next with
  | .plain => alone
  | .emojiSelector joined =>
    if inRanges emojiRanges c then ((if joined then 0 else 2) + total, .emoji) else alone
  | .textSelector =>
    if inRanges emojiByDefaultRanges c && !inRanges [(0x1F200, 0x1F2FF)] c then (1 + total, .plain)
    else alone
  | .skinTone => if inRanges skinToneBaseRanges c then (total, .emoji) else alone
  | .emoji => if c = joiner then (total, .joinedEmoji) else alone
  | .joinedEmoji =>
    if c = '\ufe0f' then (total, .emojiSelector true)
    else if inRanges emojiByDefaultRanges c then (total, .emoji)
    else alone
  | .sign part => (part.extend? c total).getD alone

/-- The columns of a text, and what its first character is to one before it. -/
def measure : List Char → Nat × Following
  | [] => (0, .plain)
  | c :: rest =>
    let (total, next) := measure rest
    columnsBefore c next total

def columns (cs : List Char) : Nat :=
  (measure cs).1

@[simp] theorem columns_nil : columns [] = 0 := rfl

end TagFormula.Text
