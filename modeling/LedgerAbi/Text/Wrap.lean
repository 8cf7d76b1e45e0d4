/-
Texts laid out for a terminal.

In a list of items each item stands between quotes and is followed by a comma and a space. A new line
begins where the bare item would not fit any more, so that a line may be wider than asked for by the
marks around items.

* `Text.wrapItems` lays out items whose length need not be that of their text;
* `Text.wrap` lays a list of names out in lines.
-/
import LedgerAbi.Text.Basic

namespace LedgerAbi.Text

/-- Something to be listed: the length it counts with, and the text between the quotes. -/
structure Item where
  length : Nat
  text : Text

namespace Item

def ofText (t : Text) : Item := ⟨t.length, t⟩

/-- An item as it stands in a line. -/
def listed (item : Item) : Text := "'" ++ item.text ++ "', "

end Item

/-- Lines of items, when a line has been begun. `isTooLong` tells the lengths that do not fit. -/
def wrapFrom (isTooLong : Nat → Bool) (line : Text) : List Item → List Text
  | [] => [line]
  | item :: rest =>
    if isTooLong (line.length + item.length + 1) then line :: wrapFrom isTooLong item.listed rest
    else wrapFrom isTooLong (line ++ item.listed) rest

/-- Items laid out in lines. -/
def wrapItems (isTooLong : Nat → Bool) (items : List Item) : List Text := wrapFrom isTooLong [] items

/-- Names laid out in lines of about the given width. -/
def wrap (width : Int) (names : List Text) : List Text :=
  wrapItems (fun n => width < n) (names.map Item.ofText)

end LedgerAbi.Text
