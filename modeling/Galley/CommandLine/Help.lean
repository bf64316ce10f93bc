/-! # Help

The texts that the program prints when it is asked about itself.
-/

namespace Galley.CommandLine

/-- A text of several lines. -/
def joinLines (lines : List String) : String :=
  String.join (lines.map (· ++ "\n"))

/-- What the program prints when it is asked for its version. -/
def versionText : String :=
  joinLines ["texfmt 0.1"]

/-- The options in a table. -/
def summaryLines : List String :=
  ["Command line driver for the texfmt text formatter",
    "",
    "Usage: texfmt [OPTIONS] [INPUT]",
    "",
    "Arguments:",
    "  [INPUT]  Path to the document to format, or `-` for standard input",
    "",
    "Options:",
    "  -o, --output <OUTPUT>            Path to write the formatted text to. " ++
      "Defaults to standard output",
    "      --presets <PRESETS>          JSON file with the starting parameters of " ++
      "the main text and of",
    "                                   endnotes",
    "      --text-width <TEXT_WIDTH>    Width of lines, including indentation",
    "      --text-height <TEXT_HEIGHT>  Number of lines per page",
    "      --indent <INDENT>            Blanks inserted before every line",
    "      --par-indent <PAR_INDENT>    Extra blanks before the first line of a paragraph",
    "      --par-skip <PAR_SKIP>        Blank lines inserted between paragraphs",
    "      --no-fill                    Keep the input lines instead of filling " ++
      "lines up to the text",
    "                                   width",
    "      --no-justify                 Do not stretch filled lines to the text width",
    "  -h, --help                       Print help (see more with '--help')",
    "  -V, --version                    Print version"]

/-- What the program prints when it is asked for a summary of its options. -/
def summaryText : String :=
  joinLines summaryLines

/-- What the program does, and the options with all that there is to say on them. -/
def helpLines : List String :=
  ["Fill, justify and paginate text annotated with backslash commands.",
    "",
    "The input is free text. Blank lines separate paragraphs. Formatting is " ++
      "controlled with commands like",
    "`\\textwidth\x7b60\x7d`, `\\nofill` and `\\endnote\x7btext\x7d`. Command line " ++
      "flags override the starting",
    "parameters of the main text; commands in the document take precedence over them.",
    "",
    "Usage: texfmt [OPTIONS] [INPUT]",
    "",
    "Arguments:",
    "  [INPUT]",
    "          Path to the document to format, or `-` for standard input.",
    "          ",
    "          Standard input is read if no path is given.",
    "",
    "Options:",
    "  -o, --output <OUTPUT>",
    "          Path to write the formatted text to. Defaults to standard output.",
    "          ",
    "          Nothing is written if the document has errors.",
    "",
    "      --presets <PRESETS>",
    "          JSON file with the starting parameters of the main text and of endnotes.",
    "          ",
    "          The file has two optional tables, `main` and `endnote`, with the " ++
      "fields `text_width`,",
    "          `indentation`, `par_indentation`, `par_skip`, `text_height`, `fill` and `justify`.",
    "",
    "      --text-width <TEXT_WIDTH>",
    "          Width of lines, including indentation",
    "",
    "      --text-height <TEXT_HEIGHT>",
    "          Number of lines per page",
    "",
    "      --indent <INDENT>",
    "          Blanks inserted before every line",
    "",
    "      --par-indent <PAR_INDENT>",
    "          Extra blanks before the first line of a paragraph",
    "",
    "      --par-skip <PAR_SKIP>",
    "          Blank lines inserted between paragraphs",
    "",
    "      --no-fill",
    "          Keep the input lines instead of filling lines up to the text width",
    "",
    "      --no-justify",
    "          Do not stretch filled lines to the text width",
    "",
    "  -h, --help",
    "          Print help (see a summary with '-h')",
    "",
    "  -V, --version",
    "          Print version"]

/-- What the program prints when it is asked for help. -/
def helpText : String :=
  joinLines helpLines

end Galley.CommandLine
