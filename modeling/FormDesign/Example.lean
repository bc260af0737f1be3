/-!
# A sample form

A household survey in English and French with a question of most kinds, a group and a branch, as a
starting point for new forms. It uses some of the older names of properties.
-/

namespace FormDesign

/-- The text of the sample form. -/
def exampleForm : String :=
  "\n".intercalate [
    "\x7b",
    "  \"title\": \"Household Survey\",",
    "  \"controls\": [",
    "    \x7b",
    "      \"type\": \"inputText\",",
    "      \"Name\": \"name\",",
    "      \"Label\": \x7b \"en\": \"Name\", \"fr\": \"Nom\" \x7d,",
    "      \"Hint\": \x7b \"en\": \"Full name\" \x7d,",
    "      \"Required\": true,",
    "      \"Read Only\": false,",
    "      \"Length\": \x7b \"min\": 1, \"max\": 5 \x7d,",
    "      \"Constraint\": \". != 'x'\",",
    "      \"Relevance\": \"\"",
    "    \x7d,",
    "    \x7b",
    "      \"type\": \"inputNumeric\",",
    "      \"name\": \"age\",",
    "      \"label\": \x7b \"en\": \"Age\", \"fr\": \"Âge\" \x7d,",
    "      \"kind\": \"Integer\",",
    "      \"range\": \x7b \"min\": 0, \"max\": 120 \x7d,",
    "      \"relevance\": \"/data/name != ''\"",
    "    \x7d,",
    "    \x7b",
    "      \"type\": \"inputNumeric\",",
    "      \"name\": \"income\",",
    "      \"kind\": \"Decimal\",",
    "      \"readOnly\": true,",
    "      \"range\": false",
    "    \x7d,",
    "    \x7b",
    "      \"type\": \"group\",",
    "      \"name\": \"household\",",
    "      \"label\": \x7b \"en\": \"Household\", \"fr\": \"Ménage\" \x7d,",
    "      \"children\": [",
    "        \x7b \"type\": \"inputDate\", \"name\": \"visit\", " ++
      "\"label\": \x7b \"en\": \"Visit date\" \x7d \x7d,",
    "        \x7b \"type\": \"inputLocation\", \"name\": \"gps\" \x7d,",
    "        \x7b \"type\": \"inputMedia\", \"name\": \"photo\", \"kind\": \"Image\", " ++
      "\"label\": \x7b \"en\": \"Photo\" \x7d \x7d",
    "      ]",
    "    \x7d,",
    "    \x7b",
    "      \"type\": \"branch\",",
    "      \"branches\": [",
    "        \x7b",
    "          \"conditions\": [\"/data/age > 17\"],",
    "          \"children\": [",
    "            \x7b",
    "              \"type\": \"inputSelectOne\",",
    "              \"name\": \"work\",",
    "              \"label\": \x7b \"en\": \"Employed?\" \x7d,",
    "              \"options\": [",
    "                \x7b \"text\": \x7b \"en\": \"Yes\", \"fr\": \"Oui\" \x7d, " ++
      "\"val\": \"yes\" \x7d,",
    "                \x7b \"text\": \x7b \"en\": \"No\" \x7d, \"val\": \"no\" \x7d",
    "              ]",
    "            \x7d",
    "          ]",
    "        \x7d,",
    "        \x7b",
    "          \"conditions\": [\"/data/age < 18\"],",
    "          \"children\": [",
    "            \x7b",
    "              \"type\": \"inputSelectMany\",",
    "              \"name\": \"school\",",
    "              \"Options\": [",
    "                \x7b \"text\": \x7b \"en\": \"A\" \x7d, \"val\": \"a\" \x7d,",
    "                \x7b \"text\": \x7b \"en\": \"B\" \x7d, \"val\": \"b\" \x7d",
    "              ]",
    "            \x7d",
    "          ]",
    "        \x7d",
    "      ]",
    "    \x7d,",
    "    \x7b",
    "      \"type\": \"inputText\",",
    "      \"name\": \"notes\",",
    "      \"Instance Destination\": \"/data/extra/notes\"",
    "    \x7d",
    "  ]",
    "\x7d"] ++ "\n"

end FormDesign
