namespace Lexicon.CommandLine

def usage : String :=
  "usage: table-lexer [-h] [--file FILE | --interactive | --demo]
                   [--print-tokens] [--no-tables] [--dump-tables DUMP_TABLES]
                   [--collect-errors] [--viz-fsm VIZ_FSM]
                   [--viz-format VIZ_FORMAT] [--verbose]
"

def help : String :=
  usage ++ "
Scan a program and print its symbol tables

options:
  -h, --help            show this help message and exit
  --file FILE, -f FILE  Path to source file to process
  --interactive, -i     Start interactive REPL mode
  --demo                Process the built-in demo program
  --print-tokens        Print scanner tokens
  --no-tables           Do not print the symbol tables
  --dump-tables DUMP_TABLES
                        Path to write symbol tables JSON
  --collect-errors      Report every lexical error instead of stopping at the
                        first
  --viz-fsm VIZ_FSM     Path (without extension) to write Graphviz
                        visualization of the scanner
  --viz-format VIZ_FORMAT
                        Format for Graphviz output (svg, png, pdf, etc)
  --verbose, -v         Enable debug logging
"

end Lexicon.CommandLine
