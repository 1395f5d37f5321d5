import Turnstile.Command.Line
/-!
# Usage

What is printed about the command line itself: how it is used, the version, and what is wrong with one that
is not understood.
-/

namespace Turnstile.Command

def programName : String := "access-gateway"

def usage : String :=
  "Usage: access-gateway <COMMAND>\n\n" ++
  "Commands:\n" ++
  "  serve  Run the gateway\n" ++
  "  issue  Create a token record and print its bearer token\n" ++
  "  help   Print this message or the help of the given subcommand(s)\n\n" ++
  "Options of both commands:\n" ++
  "  -c, --config <CONFIG>        Configuration file layered over config/default and config/local\n\n" ++
  "Options of issue:\n" ++
  "      --api-key <API_KEY>      API key to provision; a random one is generated when omitted\n" ++
  "      --limit <LIMIT>          Requests allowed per rate-limit window [default: 10]\n" ++
  "      --ttl-hours <TTL_HOURS>  Lifetime of the token in hours [default: 24]\n" ++
  "      --routes <ROUTES>        Comma-separated route patterns; empty allows every path"

def LineError.message : LineError → String
  | .noCommand | .help => usage
  | .version => programName
  | .unknownCommand => "unrecognized subcommand"
  | .unknownArgument => "unexpected argument found"
  | .repeated => "the argument cannot be used multiple times"
  | .missingValue => "a value is required but none was supplied"
  | .badValue => "invalid value"
  | .surplusValue => "unexpected value found; no more were expected"

/-- Whether the reason is an answer and not a fault. -/
def LineError.isAnswer : LineError → Bool
  | .help | .version => true
  | _ => false

end Turnstile.Command
