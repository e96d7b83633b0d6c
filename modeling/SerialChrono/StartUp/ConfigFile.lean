import SerialChrono.Config
import SerialChrono.Ini.RoundTrip

/-!
# The configuration file (`sc_config.c`)

`Options` is the whole of `configuration` as it is between the start of the program and its
threads.  `handler` is what `ini_parse` calls for each value of `serial_chrono.ini`: a value whose
section and name belong to an option is stored, any other is refused and has no effect.

An option is stored as a text or as a number, and `OptionKey.store` is the conversion.  Two names
share the field `opmode`: `opmode` sets it, and `console` adds a bit to it, so that the order of
the two in the file matters.
-/

namespace SerialChrono

open CText

/-! ## The options -/

/-- `configuration`, without the handles of the open ports. -/
structure Options extends Configuration where
  logfile : CString
  loglevel : ℤ
  verbose : ℤ
  opmode : BitVec 32
  licenseFile : CString
  localPort : ℤ
  /-- `module` -/
  moduleName : CString
  commIpaddr : CString
  commPort : Option CString
  baudRate : ℤ
  qrcommPort : CString
  webPort : ℤ
  fireBrowser : ℤ
  deriving DecidableEq

/-- `OPMODE_CONSOLE` -/
def opmodeConsole : BitVec 32 := 2

/-- `OPMODE_FIND` -/
def opmodeFind : BitVec 32 := 32

/-- `LICENSE_FILE` -/
def licenseFileName : CString :=
  "/var/www/html/AgilityContest/config/registration.info".toList

/-- `default_options` -/
def Options.default : Options where
  toConfiguration := defaultOptions
  logfile := "./serial_chrono.log".toList
  loglevel := 3
  verbose := 0
  opmode := 0
  licenseFile := licenseFileName
  localPort := 8880
  moduleName := "generic".toList
  commIpaddr := "192.168.2.1".toList
  commPort := none
  baudRate := 9600
  qrcommPort := "none".toList
  webPort := 8080
  fireBrowser := 1

/-! ## The handler -/

/-- What the file can set. -/
inductive OptionKey
  | logfile
  | loglevel
  | opmode
  | verbose
  | licenseFile
  | localPort
  | console
  | ring
  | ajaxServer
  | clientName
  | moduleName
  | commIpaddr
  | commPort
  | baudRate
  | qrcommPort
  | webPort
  | fireBrowser
  deriving DecidableEq, Repr

/-- The options, in the order the handler looks for them. -/
def optionKeys : List OptionKey :=
  [.logfile, .loglevel, .opmode, .verbose, .licenseFile, .localPort, .console, .ring, .ajaxServer,
    .clientName, .moduleName, .commIpaddr, .commPort, .baudRate, .qrcommPort, .webPort,
    .fireBrowser]

namespace OptionKey

/-- The section of an option. -/
def sectionName : OptionKey → CString
  | logfile | loglevel | opmode | verbose => "Debug".toList
  | licenseFile | localPort | console | ring => "Global".toList
  | ajaxServer | clientName => "Server".toList
  | moduleName | commIpaddr | commPort | baudRate | qrcommPort => "Serial".toList
  | webPort | fireBrowser => "Web".toList

def name : OptionKey → CString
  | logfile => "logfile".toList
  | loglevel => "loglevel".toList
  | opmode => "opmode".toList
  | verbose => "verbose".toList
  | licenseFile => "license_file".toList
  | localPort => "local_port".toList
  | console => "console".toList
  | ring => "ring".toList
  | ajaxServer => "ajax_server".toList
  | clientName => "client_name".toList
  | moduleName => "module".toList
  | commIpaddr => "comm_ipaddr".toList
  | commPort => "comm_port".toList
  | baudRate => "baud_rate".toList
  | qrcommPort => "qrcomm_port".toList
  | webPort => "web_port".toList
  | fireBrowser => "fire_browser".toList

/-- `(atoi(value)!=0)?1:0` -/
def flag (value : CString) : ℤ := if atoi value ≠ 0 then 1 else 0

/-- The assignment an option makes. -/
def store (value : CString) (o : Options) : OptionKey → Options
  | logfile => { o with logfile := value }
  | loglevel => { o with loglevel := (atoi value).tmod 9 }
  | opmode => { o with opmode := BitVec.ofInt 32 ((atoi value).tmod 0x1F) }
  | verbose => { o with verbose := flag value }
  | licenseFile => { o with licenseFile := value }
  | localPort => { o with localPort := atoi value }
  | console => { o with opmode := o.opmode ||| if atoi value ≠ 0 then opmodeConsole else 0 }
  | ring => { o with ring := atoi value }
  | ajaxServer => { o with ajaxServer := value }
  | clientName => { o with clientName := value }
  | moduleName => { o with moduleName := value }
  | commIpaddr => { o with commIpaddr := value }
  | commPort => { o with commPort := some value }
  | baudRate => { o with baudRate := atoi value }
  | qrcommPort => { o with qrcommPort := value }
  | webPort => { o with webPort := atoi value }
  | fireBrowser => { o with fireBrowser := flag value }

end OptionKey

/-- The option with that section and name. -/
def findOption (sectionName name : CString) : Option OptionKey :=
  optionKeys.find? fun k => sectionName = k.sectionName ∧ name = k.name

/-- `handler` -/
def configHandler : IniHandler Options := fun o sectionName name value =>
  match findOption sectionName name with
  | some k => (k.store value o, true)
  | none => (o, false)

/-- `parse_ini_file`, for the content of the file if it can be opened. -/
def parseIniFile (o : Options) (file : Option (List Char)) : Option Options :=
  (iniParse configHandler file o).map Prod.snd

/-- The options after a file that is read in these lines. -/
lemma parseIniFile_of_reads {file : List Char} {lines : List (List Char)}
    (hreads : StreamReader.Reads (fgets 200) file lines) (o : Options) :
    parseIniFile o (some file) =
      some (replay configHandler o (IniPlace.start.events lines)).2 := by
  rw [parseIniFile, iniParse, iniParseFile_of_reads configHandler hreads]
  rfl

end SerialChrono
