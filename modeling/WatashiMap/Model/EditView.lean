import Mathlib.Data.List.Basic
import WatashiMap.Model.Objects

namespace WatashiMap

/-- The edit form: its two texts, whether `createBtn` is enabled, and whether the form's frame
is the one that covers the screen. -/
structure EditView where
  textField : String
  memoText : String
  createBtnIsEnabled : Bool
  covers : Bool
  deriving DecidableEq

namespace EditView

def initial : EditView := ⟨"", "", true, false⟩

/-- `EditView.init(frame:)`, which draws the panel's border and those of the buttons. -/
def initFrame {F : Type} (u : UserSetting F) : Option EditView := do
  let _ ← cgColor u.color3
  let _ ← cgColor u.color2
  return initial

/-- The user changes the title, which fires `textFieldEditingChanged`. -/
def textFieldEditingChanged (text : String) (v : EditView) : EditView :=
  { v with textField := text, createBtnIsEnabled := decide (text ≠ "") }

/-- The user changes the memo. -/
def textViewDidChange (text : String) (v : EditView) : EditView := { v with memoText := text }

/-- With no title the done button is disabled; with one it is left as it is. -/
def checkTitle (v : EditView) : EditView :=
  if v.textField = "" then { v with createBtnIsEnabled := false } else v

@[simp] theorem checkTitle_textField (v : EditView) : v.checkTitle.textField = v.textField := by
  unfold checkTitle
  split <;> rfl

@[simp] theorem checkTitle_memoText (v : EditView) : v.checkTitle.memoText = v.memoText := by
  unfold checkTitle
  split <;> rfl

@[simp] theorem checkTitle_covers (v : EditView) : v.checkTitle.covers = v.covers := by
  unfold checkTitle
  split <;> rfl

/-- After the check an enabled done button stands next to a title. -/
theorem checkTitle_enabled {v : EditView} (h : v.checkTitle.createBtnIsEnabled = true) :
    v.checkTitle.textField ≠ "" := by
  unfold checkTitle at h ⊢
  split_ifs at h ⊢ with ht
  exact ht

end EditView

/-- The images of `ChoosePin`, by section. -/
def photo : List (List String) := [
  ["h1.png", "h2.png", "pair.png", "m.png", "w.png", "o.png", "redpin-1.png", "p.png", "y.png",
    "b.png", "bb.png", "bbb.png", "g.png", "pp.png", "up.png", "down.png", "houseB.png",
    "houseR.png", "walk.png", "car.png", "cycle.png", "style.png", "sc.png", "hsp.png",
    "love.png"],
  ["st.png", "mm.png", "tea.png", "curry.png", "old.png", "beer.png", "garlic.png", "onion.png",
    "fish.png", "rice.png", "icec.png", "paprica.png", "apple.png", "daikon.png", "shrimp.png",
    "meat.png", "ramen.png", "steak.png"],
  ["baby.png", "kid.png", "adult.png", "kids.png", "boy.png", "girl.png", "boy2.png",
    "girl2.png", "boy3.png", "girl3.png", "woman.png", "man.png", "boy1.png", "girl1.png",
    "ts.png", "piero.png", "pan.png"],
  ["jungle.png", "play.png", "play2.png", "badm.png", "bilard.png", "book.png", "paint.png",
    "music.png"],
  ["rabbit.png", "bear.png", "bed.png", "futon.png", "shirt.png", "money.png", "camera.png",
    "building.png", "paper.png", "phone.png", "tree.png", "nature.png", "flower.png", "umo.png",
    "fuel.png", "glasses.png", "study.png", "nail.png", "unko.png", "moon.png", "s.png",
    "chicken.png", "usb.png", "hotel.png", "onsen.png", "temp.png", "super.png", "gym.png",
    "ear.png", "eye.png", "foot.png", "lip.png", "nose.png", "hand.png", "fire.png", "water.png",
    "bottle.png", "watch.png", "bulb.png", "undie.png", "earth.png", "lip2.png", "sock.png",
    "other.png"]]

/-- `ChoosePin.collectionView(_:didSelectItemAt:)`: the new pin colour. The collection view
offers the index paths of `photo` only; any other leaves the colour as it is. -/
def choosePin (sec row : Nat) (pinColor : String) : String :=
  ((photo[sec]?).bind fun s => s[row]?).getD pinColor

end WatashiMap
