import SerialChrono.Library.CText
import SerialChrono.Library.PartialRun
import SerialChrono.Library.LinkedChain
import SerialChrono.Config
import SerialChrono.Queue.Model
import SerialChrono.Queue.Fifo
import SerialChrono.Queue.Browser
import SerialChrono.Tools
import SerialChrono.MainMgr
import SerialChrono.MainLoop
import SerialChrono.MainSpec
import SerialChrono.Exit
import SerialChrono.Blanks
import SerialChrono.Managers.Web
import SerialChrono.Managers.Qrcode
import SerialChrono.Managers.ConsoleThread
import SerialChrono.Managers.Serial
import SerialChrono.Managers.Ajax
import SerialChrono.Managers.Agreement
import SerialChrono.Library.Batching
import SerialChrono.Events.Json
import SerialChrono.Events.Decode
import SerialChrono.Events.Update
import SerialChrono.Events.Deliver
import SerialChrono.Events.Line
import SerialChrono.Events.Batches
import SerialChrono.StatusInvariant
import SerialChrono.License
import SerialChrono.License.Items
import SerialChrono.License.Decoding
import SerialChrono.Library.Replacement
import SerialChrono.Replace
import SerialChrono.Managers.Publish
import SerialChrono.Canometroweb.Model
import SerialChrono.Canometroweb.Dialects
import SerialChrono.Canometroweb.Intermediate
import SerialChrono.Canometroweb.Requests
import SerialChrono.Canometroweb.Pages
import SerialChrono.Canometroweb.Lock
import SerialChrono.Canometroweb.Reports
import SerialChrono.Canometroweb.Polling
import SerialChrono.Canometroweb.Toggle
import SerialChrono.Managers.Network
import SerialChrono.Canometroweb.Echo
import SerialChrono.Canometroweb.Race
import SerialChrono.Canometroweb.Synchronize
import SerialChrono.Canometroweb.Settled
import SerialChrono.Digican.Model
import SerialChrono.Digican.Display
import SerialChrono.Digican.CourseTime
import SerialChrono.Digican.Totals
import SerialChrono.Digican.Elimination
import SerialChrono.Digican.Frames
import SerialChrono.Managers.SerialThread
import SerialChrono.Library.Cursor
import SerialChrono.Events.Cursor
import SerialChrono.Bounds
import SerialChrono.Explode
import SerialChrono.Stripos
import SerialChrono.Rejection
import SerialChrono.Running
import SerialChrono.Counting
import SerialChrono.Managers.Console
import SerialChrono.Managers.Arguments
import SerialChrono.Library.CBuffer
import SerialChrono.Generic.Model
import SerialChrono.Generic.Lines
import SerialChrono.Generic.RoundTrip
import SerialChrono.Library.JsNumber
import SerialChrono.Browser.Chrono
import SerialChrono.Browser.Stopped
import SerialChrono.Browser.CourseTime
import SerialChrono.Events.Own
import SerialChrono.Queue.Held
import SerialChrono.Events.Merge
import SerialChrono.Events.TinyJson
import SerialChrono.Events.Responses
import SerialChrono.Managers.Reencoding
import SerialChrono.Library.UrlQuery
import SerialChrono.Managers.MessageText
import SerialChrono.Library.JsonText
import SerialChrono.Queue.ReplyText
import SerialChrono.Queue.Size
import SerialChrono.Library.StreamReader
import SerialChrono.Ini.Model
import SerialChrono.Ini.Events
import SerialChrono.Ini.Text
import SerialChrono.Ini.RoundTrip
import SerialChrono.Library.Assignment
import SerialChrono.StartUp.ConfigFile
import SerialChrono.StartUp.Written
import SerialChrono.Library.CycleRotation
import SerialChrono.StartUp.Getopt
import SerialChrono.StartUp.Scan
import SerialChrono.StartUp.CommandLine
import SerialChrono.StartUp.Precedence
import SerialChrono.Events.JsonGrammar
import SerialChrono.Events.JsonLanguage
import SerialChrono.Events.JsonPrint
import SerialChrono.Browser.Countdown
import SerialChrono.Browser.Controls
import SerialChrono.Library.ParseInt
import SerialChrono.Browser.Commands
import SerialChrono.Library.LateCounter
import SerialChrono.Browser.Presses
import SerialChrono.StartUp.Threads
import SerialChrono.Events.SessionName
import SerialChrono.Library.FileTree
import SerialChrono.Managers.WebFiles
