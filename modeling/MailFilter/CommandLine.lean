/-
  This file defines the arguments that the filter is started
  with.

  Key definitions include:
    * `CommandLine`
    * `CommandLine.Options`
    * `CommandLine.parse`
-/

namespace MailFilter

/- What the arguments ask for. -/
structure CommandLine.Options where
  /- Where the settings are. -/
  file : String := "/etc/spmfilter.conf"
  /- Log everything, whatever the settings say. -/
  debug : Bool := false
deriving DecidableEq, Repr

open CommandLine in
/- What is to be done. -/
inductive CommandLine where
  | start (options : Options)
  | help
  | version
  /- The arguments make no sense. -/
  | refused (reason : String)
deriving DecidableEq, Repr

namespace CommandLine

/- The text that explains the arguments. -/
def usage : String :=
  "Mail filtering gateway with pluggable filter modules\n\n" ++
    "Usage: spmfilter [OPTIONS]\n\n" ++
    "Options:\n" ++
    "  -f, --file <FILE>  Path to the configuration file " ++
    "[default: /etc/spmfilter.conf]\n" ++
    "  -d, --debug        Log everything, whatever the " ++
    "configuration says\n" ++
    "  -h, --help         Print help\n" ++
    "  -V, --version      Print version\n"

/- The text that tells the version. -/
def versionText : String :=
  "spmfilter 0.1.0"

/- The text for an argument that is not known. -/
def unexpected
    (argument : String) : CommandLine :=
  .refused
    ("error: unexpected argument '" ++ argument ++ "' found\n\n" ++
      "Usage: spmfilter [OPTIONS]")

/- The text for an option without its value. -/
def valueMissing : CommandLine :=
  .refused
    ("error: a value is required for '--file <FILE>' " ++
      "but none was supplied")

/- Read arguments, given the options so far. -/
def parseFrom
    (options : Options) : List String → CommandLine
  | [] => .start options
  | "-h" :: _ => .help
  | "--help" :: _ => .help
  | "-V" :: _ => .version
  | "--version" :: _ => .version
  | "-d" :: rest => parseFrom { options with debug := true } rest
  | "--debug" :: rest =>
      parseFrom { options with debug := true } rest
  | "-f" :: file :: rest =>
      parseFrom { options with file := file } rest
  | "--file" :: file :: rest =>
      parseFrom { options with file := file } rest
  | ["-f"] => valueMissing
  | ["--file"] => valueMissing
  | argument :: rest =>
      match argument.splitOn "=" with
      | "--file" :: file :: more =>
          let file := "=".intercalate (file :: more)
          parseFrom { options with file := file } rest
      | _ => unexpected argument

/- Read the arguments of the program. -/
def parse
    (arguments : List String) : CommandLine :=
  parseFrom {} arguments

end CommandLine

end MailFilter
