import WatashiMap.Library.Keyed

namespace WatashiMap

/-- What the map code asks of Swift's `Double`: `String(x)` and `Double(s)`, which read each
other back, so two coordinates are equal exactly when their strings are. -/
class SwiftDouble (D : Type) where
  zero : D
  description : D → String
  ofString : String → Option D
  ofString_description (x : D) : ofString (description x) = some x

/-- What the theme code asks of `CGFloat`: quotients of literals such as `184/255`,
`NSString(format: "%.7f", x)` and `CGFloat(NSString(string: s).floatValue)`. -/
class SwiftCGFloat (F : Type) where
  ratio : Nat → Nat → F
  format7 : F → String
  floatValue : String → F

open SwiftDouble SwiftCGFloat

theorem description_injective {D : Type} [SwiftDouble D] :
    Function.Injective (description : D → String) := by
  intro x y h
  have hx := ofString_description x
  rw [h, ofString_description y] at hx
  exact (Option.some.inj hx).symm

structure CLLocationCoordinate2D (D : Type) where
  latitude : D
  longitude : D
  deriving DecidableEq

namespace CLLocationCoordinate2D

variable {D : Type} [SwiftDouble D]

/-- `CLLocationCoordinate2D()`. -/
def origin : CLLocationCoordinate2D D := ⟨zero, zero⟩

/-- The strings `coordinateLat` and `coordinateLon` of a pin saved here. -/
def strings (c : CLLocationCoordinate2D D) : String × String :=
  (description c.latitude, description c.longitude)

theorem strings_injective : Function.Injective (strings : CLLocationCoordinate2D D → _) := by
  intro a b h
  obtain ⟨hlat, hlon⟩ := Prod.mk.inj h
  cases a
  cases b
  simp only [CLLocationCoordinate2D.mk.injEq]
  exact ⟨description_injective hlat, description_injective hlon⟩

end CLLocationCoordinate2D

structure PinItem where
  coordinateLat : String
  coordinateLon : String
  title : Option String
  subtitle : Option String
  image : Option String
  deriving DecidableEq

/-- What the predicate `coordinateLat == %@ AND coordinateLon == %@` reads. -/
def PinItem.coordinates (p : PinItem) : String × String := (p.coordinateLat, p.coordinateLon)

def PinItem.contents (p : PinItem) : Option String × Option String × Option String :=
  (p.title, p.subtitle, p.image)

structure UserPin where
  name : Option String
  deriving DecidableEq

structure ThemeColor where
  r : Option String
  g : Option String
  b : Option String
  deriving DecidableEq

/-- The objects on disk. Each class is listed in the order its objects were added, which is the
order Realm gives them in until one is deleted: it then moves the last object into the free
place. -/
structure Realm where
  pinItems : List PinItem
  themeColors : List ThemeColor
  userPins : List UserPin
  deriving DecidableEq

def Realm.empty : Realm := ⟨[], [], []⟩

structure RGB (F : Type) where
  r : F
  g : F
  b : F
  deriving DecidableEq

/-- `placeholder` is `UIColor()`; the program makes every other colour from three components
and alpha 1. -/
inductive UIColor (F : Type) where
  | placeholder
  | rgb (c : RGB F)
  deriving DecidableEq

/-- `color?.cgColor`. A missing colour gives `nil`; `UIColor()` has no `CGColor`, and asking it for
one raises, which is the outer `none`. -/
def cgColor {F : Type} : Option (UIColor F) → Option (Option (RGB F))
  | none => some none
  | some .placeholder => none
  | some (.rgb c) => some (some c)

/-- The static fields of the process. -/
structure UserSetting (F : Type) where
  pinColor : String
  color1 : Option (UIColor F)
  color2 : Option (UIColor F)
  color3 : Option (UIColor F)
  pinImage : Option String
  deriving DecidableEq

/-- The statics before `didFinishLaunching` has run. -/
def UserSetting.initial {F : Type} : UserSetting F := ⟨"redpin-1.png", none, none, none, none⟩

structure CustomAnnotation (D : Type) where
  coordinate : CLLocationCoordinate2D D
  title : String
  subtitle : String
  image : String
  deriving DecidableEq

/-- The record of a pin with these contents, as `Create` fills it in. -/
def CustomAnnotation.record {D : Type} [SwiftDouble D] (c : CustomAnnotation D) : PinItem where
  coordinateLat := description c.coordinate.latitude
  coordinateLon := description c.coordinate.longitude
  title := some c.title
  subtitle := some c.subtitle
  image := some c.image

/-- An annotation of the map view. The search marker is one shared object, so it carries no
data here: its coordinate is read from the view controller. -/
inductive MKAnnotation (D : Type) where
  | custom (c : CustomAnnotation D)
  | point
  | userLocation
  deriving DecidableEq

end WatashiMap
