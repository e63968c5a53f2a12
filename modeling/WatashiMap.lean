import WatashiMap.Form.Display
import WatashiMap.Form.DoneButton
import WatashiMap.Form.Entries
import WatashiMap.Form.Images
import WatashiMap.Form.Session
import WatashiMap.Form.Titles
import WatashiMap.Library.CommandLog
import WatashiMap.Library.Crash
import WatashiMap.Library.Keyed
import WatashiMap.Library.LastWrite
import WatashiMap.Library.Liveness
import WatashiMap.Library.Machine
import WatashiMap.Library.Pool
import WatashiMap.Library.Quantize
import WatashiMap.Library.Simulation
import WatashiMap.Model.App
import WatashiMap.Model.Decimals
import WatashiMap.Model.EditView
import WatashiMap.Model.Effects
import WatashiMap.Model.Marker
import WatashiMap.Model.Numbers
import WatashiMap.Model.Objects
import WatashiMap.Model.Panels
import WatashiMap.Model.SettingView
import WatashiMap.Model.Suggestions
import WatashiMap.Model.Theme
import WatashiMap.Model.Tutorial
import WatashiMap.Model.ViewController
import WatashiMap.Model.Written
import WatashiMap.Panels.Consistency
import WatashiMap.Panels.DeletingButton
import WatashiMap.Panels.Showing
import WatashiMap.Pins.Atomic
import WatashiMap.Pins.Chosen
import WatashiMap.Pins.Editing
import WatashiMap.Pins.History
import WatashiMap.Pins.MapContents
import WatashiMap.Pins.Mirror
import WatashiMap.Pins.Store
import WatashiMap.Search.Dismissal
import WatashiMap.Search.Latest
import WatashiMap.Search.Matching
import WatashiMap.Search.Outstanding
import WatashiMap.Search.Provenance
import WatashiMap.Search.Selection
import WatashiMap.Search.Table
import WatashiMap.Settings.Cancel
import WatashiMap.Settings.Choices
import WatashiMap.Settings.History
import WatashiMap.Settings.Interrupted
import WatashiMap.Settings.Loader
import WatashiMap.Settings.Preview
import WatashiMap.Settings.Reset
import WatashiMap.Settings.Restart
import WatashiMap.Settings.RoundTrip
import WatashiMap.Settings.Sliders
import WatashiMap.Tutorial.Indicator
import WatashiMap.Tutorial.Stages
import WatashiMap.Tutorial.Timers
