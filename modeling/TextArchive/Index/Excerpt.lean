import TextArchive.Index.Document

/-!
Excerpts: a window of tokens of a text in which the places found by a query are set off by marks.
The window is the one that shows most: each phrase counts much the first time and little again, and
windows that start with a sentence are preferred.
-/

set_option autoImplicit false
set_option relaxedAutoImplicit false

namespace TextArchive.Index

/-- A place of a phrase in the text: the number of the phrase, how many tokens stand before it, and
how many tokens it has. -/
structure Instance where
  phrase : Nat
  offset : Nat
  length : Nat
deriving DecidableEq, Repr

structure ExcerptStyle where
  opening : List Char
  closing : List Char
  ellipsis : List Char
  tokens : Nat

namespace Excerpt

/-- The instances of phrases in one column, in the order of their places; at one place the earlier
phrase comes first. -/
def instances (column : Nat) (phrases : List (Nat × List Position)) : List Instance :=
  let all := phrases.zipIdx.flatMap fun p =>
    (p.1.2.filter (·.column = column)).map fun position => Instance.mk p.2 position.offset p.1.1
  all.mergeSort fun a b => a.offset ≤ b.offset

/-- What is known of the text before a place: whether a full stop or a colon comes last but for
white space, and whether white space comes last. -/
structure Before where
  ended : Bool
  spaced : Bool

def Before.add (b : Before) (c : Char) : Before :=
  if c = ' ' || c = '\t' || c = '\n' || c = '\r' then { b with spaced := true }
  else ⟨c = '.' || c = ':', false⟩

/-- For each place of a text, whether a sentence has just ended there. -/
def sentenceEnds (b : Before) : List Char → List Bool
  | [] => [b.ended && b.spaced]
  | c :: r => (b.ended && b.spaced) :: sentenceEnds (b.add c) r

/-- The tokens with which sentences start; the first token always starts one. -/
def sentences (text : List Char) (tokens : List Token) : List Nat :=
  let ends := (sentenceEnds ⟨false, false⟩ text).toArray
  tokens.zipIdx.filterMap fun p =>
    if p.2 = 0 || (ends[p.1.start]?).getD false then some p.2 else none

/-- The first and the last shown token of the instances in a window, and their value. -/
structure Shown where
  value : Nat
  seen : List Nat
  first : Option Nat
  last : Nat

def Shown.add (s : Shown) (i : Instance) : Shown where
  value := s.value + (if s.seen.contains i.phrase then 1 else 1000)
  seen := i.phrase :: s.seen
  first := some (s.first.getD i.offset)
  last := i.offset + i.length

def shown (width : Nat) (found : List Instance) (start : Nat) : Shown :=
  (found.filter fun i => start ≤ i.offset && i.offset < start + width).foldl
    Shown.add ⟨0, [], none, 0⟩

/-- The start of a window of the same width that has what is shown in its middle, as far as the text
reaches. -/
def centred (width size : Nat) (s : Shown) : Nat :=
  let first : Int := s.first.elim (-1) Int.ofNat
  let start := first - Int.tdiv (width - (s.last - first)) 2
  (min start ((size : Int) - width)).toNat

/-- A window that may be shown, with its value. -/
structure Window where
  value : Nat
  start : Nat
deriving DecidableEq, Repr

/-- The windows that an instance proposes: one that has it in the middle, and one that starts with
the sentence it is in, if the text does not fit as a whole. -/
def proposals (width size : Nat) (starts : List Nat) (found : List Instance) (i : Instance) :
    List Window :=
  let here := shown width found i.offset
  let middle : Window := ⟨here.value, centred width size here⟩
  match (starts.filter (· ≤ i.offset)).getLast? with
  | none => [middle]
  | some sentence =>
    if width < size && sentence < i.offset then
      [middle, ⟨(shown width found sentence).value + (if sentence = 0 then 120 else 100), sentence⟩]
    else [middle]

/-- The first window of the highest value; the start of the text if nothing is found. -/
def bestStart (width size : Nat) (starts : List Nat) (found : List Instance) : Nat :=
  ((found.flatMap (proposals width size starts found)).foldl
    (fun best w => if best.value < w.value then w else best) (⟨0, 0⟩ : Window)).start

/-- Instances that overlap, taken together: the first and the last token of each stretch. -/
def stretches : List Instance → List (Nat × Nat)
  | [] => []
  | i :: rest => go i.offset (i.offset + i.length - 1) rest
where
  go (first last : Nat) : List Instance → List (Nat × Nat)
    | [] => [(first, last)]
    | i :: rest =>
      if i.offset ≤ last then go first (max last (i.offset + i.length - 1)) rest
      else (first, last) :: go i.offset (i.offset + i.length - 1) rest

/-- An excerpt in the making: what is written, how much of the text has been passed, whether a mark
is open, and the stretches still to be marked. -/
structure Writing where
  written : List Char
  passed : Nat
  isOpen : Bool
  ahead : List (Nat × Nat)

/-- A piece of the text as it is written: it ends before a zero character. -/
def piece (text : List Char) (start stop : Nat) : List Char :=
  ((text.take stop).drop start).takeWhile (· ≠ '\x00')

def Writing.copy (w : Writing) (text : List Char) (stop : Nat) : Writing :=
  { w with written := w.written ++ piece text w.passed stop, passed := stop }

def Writing.close (w : Writing) (style : ExcerptStyle) : Writing :=
  if w.isOpen then { w with written := w.written ++ style.closing, isOpen := false } else w

def Writing.openMark (w : Writing) (style : ExcerptStyle) : Writing :=
  if w.isOpen then w else { w with written := w.written ++ style.opening, isOpen := true }

/-- Pass the first token of the window; what stands before it is not written. -/
def Writing.enter (w : Writing) (start n : Nat) (t : Token) : Writing :=
  if start ≠ 0 && n = start then { w with passed := t.start } else w

/-- Close the mark before a token that does not go on with a stretch and stands past what is
written. -/
def Writing.leave (w : Writing) (style : ExcerptStyle) (n : Nat) (t : Token) : Writing :=
  let outside : Bool :=
    match w.ahead with
    | [] => true
    | (first, _) :: _ => n ≤ first
  if outside && w.passed < t.start then w.close style else w

/-- Write up to a token that starts a stretch, and open the mark. -/
def Writing.begin (w : Writing) (style : ExcerptStyle) (text : List Char) (n : Nat) (t : Token) :
    Writing :=
  match w.ahead with
  | (first, _) :: _ => if n = first && !w.isOpen then (w.copy text t.start).openMark style else w
  | [] => w

def Writing.finish (w : Writing) (style : ExcerptStyle) (text : List Char) (n : Nat) (t : Token) :
    Writing :=
  match w.ahead with
  | (_, last) :: rest =>
    if n = last then { (w.openMark style).copy text t.stop with ahead := rest } else w
  | [] => w

/-- Write the last token of the window, closing the mark before it unless it belongs to a
stretch. -/
def Writing.last (w : Writing) (style : ExcerptStyle) (text : List Char) (n : Nat) (t : Token) :
    Writing :=
  let w :=
    match w.isOpen, w.ahead with
    | true, (first, _) :: _ => if first ≤ n then w.copy text t.stop else w
    | _, _ => w
  (w.close style).copy text t.stop

/-- Pass a token of the window. -/
def Writing.token (style : ExcerptStyle) (text : List Char) (start stop : Nat) (w : Writing)
    (p : Token × Nat) : Writing :=
  let (t, n) := p
  if n < start || stop < n then w
  else
    let w := (((w.enter start n t).leave style n t).begin style text n t).finish style text n t
    if n = stop then w.last style text n t else w

def render (style : ExcerptStyle) (text : List Char) (tokens : List Token) (found : List Instance) :
    List Char :=
  let start := bestStart style.tokens tokens.length (sentences text tokens) found
  let stop := start + style.tokens - 1
  let ahead := (stretches found).dropWhile (·.1 < start)
  let written := if 0 < start then style.ellipsis else []
  let w := tokens.zipIdx.foldl (Writing.token style text start stop) ⟨written, 0, false, ahead⟩
  let w := w.close style
  if tokens.length ≤ stop + 1 then (w.copy text text.length).written
  else w.written ++ style.ellipsis

end Excerpt

end TextArchive.Index
